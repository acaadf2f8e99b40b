import RegisterMachine.Numeral
import RegisterMachine.Opcode
import RegisterMachine.Word

/-!
# Operands

**Contents.**
* `Operand`: an integer, a quoted text, or the name of a register or label.
* `Operand.ofToken`: a token is an integer when it is a numeral, a text when it
  begins with a quote, and otherwise names a register.
* `Operand.write`: the operand as it is written in a program.
* `Literal`: the kinds of operand that hold no name.
* `Slot.fit`: the operand as an operation sees it, if it suits the slot.

**Results.**
* `Word.InRange.isShowable`: a word is short enough to be shown.
-/

namespace RegisterMachine

/-- A word is short enough to be shown. -/
theorem Word.InRange.isShowable {v : Int} (h : InRange v) : Numeral.isShowable v = true := by
  have hbound : 10 ^ 10 ≤ Numeral.overlong :=
    Numeral.pow_le_overlong (by decide)
  have hlt : v.natAbs < 10 ^ 10 := by
    simp only [InRange, least, greatest] at h
    omega
  exact Numeral.isShowable_iff.mpr (Nat.lt_of_lt_of_le hlt hbound)

/-- An operand of an instruction. -/
inductive Operand
  | integer (value : Int)
  | text (content : Text)
  | label (name : Text)
  | register (name : Text)
deriving DecidableEq, Repr

/-- The kinds of operand that hold no name. -/
inductive Literal
  | integer
  | text
deriving DecidableEq, Repr

/-- The word for a kind of literal. -/
def Literal.word : Literal → String
  | .integer => "IntegerLiteral"
  | .text => "StringLiteral"

namespace Operand

/-- The character at both ends of a quoted text. -/
def quote : Char := '\x27'

/-- An operand as it is written in a program. -/
def write : Operand → Text
  | .integer value => Numeral.write value
  | .text content => quote :: content ++ [quote]
  | .label name => name
  | .register name => name

/-- The content of a quoted text after its first quote; a missing last quote is
tolerated. -/
def unquote (rest : Text) : Text :=
  if rest.getLast? = some quote then rest.dropLast else rest

/-- The operand that is not a numeral. -/
def ofWord : Text → Operand
  | [] => .register []
  | c :: rest => if c = quote then .text (unquote rest) else .register (c :: rest)

/-- The operand that a token denotes; integers are wrapped to a word. -/
def ofToken (token : Text) : Except TooLong Operand :=
  match Numeral.ofToken? token with
  | some numeral => numeral.read.map fun value => .integer (Word.wrap value)
  | none => .ok (ofWord token)

end Operand

namespace Slot

/-- The operand as an operation sees it in a slot, if it suits the slot: a name
in the place of a target is a label. -/
def fit : Slot → Operand → Option Operand
  | .register, .register name => some (.register name)
  | .value, .register name => some (.register name)
  | .value, .integer n => some (.integer n)
  | .target, .register name => some (.label name)
  | _, _ => none

end Slot
end RegisterMachine
