import RegisterMachine.Operand
import RegisterMachine.Text.Quoted

/-!
# Faults and errors

**Contents.**
* `Fault`: why one instruction failed.
* `Fault.ofDividend`: what a division by zero raises.
* `Failure`: a fault with the place it happened at and the output before it.
* `ParseError`: why a source text is not a program.
* `Error`: everything that can stop a program from being read or run.

Each has one function `message` that words it.
-/

namespace RegisterMachine

/-- Why an instruction failed.  An operand count or a literal in the place of a
name is at fault only in an instruction that was put together by hand, and an integer
that is too long to be shown only on a machine that was. -/
inductive Fault
  | unsetRegister (name : Text)
  | undefinedLabel (name : Text)
  | emptyCallStack
  | divisionByZero (dividend : Int)
  | noComparison (mnemonic : Text)
  | unknownOpcode (token : Text)
  | malformed (reason : Text)
  | operandCount (expected actual : Nat)
  | nameless (literal : Literal)
  | unshowable (error : Unshowable)
  | stated (message : Text)
deriving DecidableEq, Repr

namespace Fault

/-- The complaint about operands of which there are too few or too many. -/
def countMessage (expected actual : Nat) : String :=
  if actual < expected then
    s!"not enough values to unpack (expected {Numeral.str expected}, got {Numeral.str actual})"
  else s!"too many values to unpack (expected {Numeral.str expected})"

/-- The fault in words. -/
def message : Fault → String
  | .unsetRegister name =>
      s!"Register {name.quoted.str} was read but has never been written"
  | .undefinedLabel name => s!"Label {name.quoted.str} is not defined"
  | .emptyCallStack => "RET with an empty call stack"
  | .divisionByZero dividend => s!"Division of {Numeral.str dividend} by zero"
  | .noComparison mnemonic => s!"{mnemonic.str} executed before any CMP"
  | .unknownOpcode token => s!"Unrecognized opcode {token.quoted.str}"
  | .malformed reason => s!"Malformed instruction: {reason.str}"
  | .operandCount expected actual => countMessage expected actual
  | .nameless literal =>
      "\x27" ++ literal.word ++ "\x27 object has no attribute \x27name\x27"
  | .unshowable error => error.message
  | .stated message => message.str

/-- What dividing an integer by zero raises.  The error shows the dividend; one that is
too long to be shown makes another error of it. -/
def ofDividend (dividend : Int) : Fault :=
  match Numeral.shown dividend with
  | .ok _ => .divisionByZero dividend
  | .error error => .unshowable error

theorem ofDividend_of_isShowable {dividend : Int} (h : Numeral.isShowable dividend = true) :
    ofDividend dividend = .divisionByZero dividend := by
  rw [ofDividend, Numeral.shown_of_isShowable h]

theorem ofDividend_of_not_isShowable {dividend : Int}
    (h : Numeral.isShowable dividend = false) : ofDividend dividend = .unshowable {} := by
  rw [ofDividend, Numeral.shown_of_not_isShowable h]

end Fault

/-- A fault, the line and source text where it happened, and the output written
before it.  The place is unknown until a run reports it. -/
structure Failure where
  fault : Fault
  line : Option Int := none
  source : Option Text := none
  output : Text := []
deriving DecidableEq, Repr

namespace Failure

/-- The failure in words, with its place if that is known. -/
def message (f : Failure) : String :=
  match f.line with
  | none => f.fault.message
  | some n =>
      let source := (f.source.map Text.str).getD "None"
      s!"line {Numeral.str n} ({source}): {f.fault.message}"

end Failure

/-- Why a source text is not a program. -/
inductive ParseError
  | duplicateLabel (name : Text) (first second : Int)
  | stated (message : Text) (line : Option Int)
deriving DecidableEq, Repr

namespace ParseError

/-- The line that is to blame. -/
def line : ParseError → Option Int
  | .duplicateLabel _ _ second => some second
  | .stated _ line => line

/-- What is wrong with the line. -/
def complaint : ParseError → String
  | .duplicateLabel name first _ =>
      s!"Label {name.quoted.str} already defined on line {Numeral.str first}"
  | .stated message _ => message.str

/-- The parse error in words, with its line if that is known. -/
def message (e : ParseError) : String :=
  match e.line with
  | none => e.complaint
  | some n => s!"line {Numeral.str n}: {e.complaint}"

end ParseError

/-- Everything that can stop a program from being read or run. -/
inductive Error
  | general (notes : List Text)
  | parse (error : ParseError)
  | execution (failure : Failure)
  | budget (limit : Int)
deriving DecidableEq, Repr

namespace Error

/-- Notes on one line: a single note stands for itself, several are quoted between
brackets. -/
def listed : List Text → String
  | [] => ""
  | [note] => note.str
  | notes => "(" ++ (Text.joined (notes.map Text.quoted)).str ++ ")"

/-- The error in words. -/
def message : Error → String
  | .general notes => listed notes
  | .parse error => error.message
  | .execution failure => failure.message
  | .budget limit => s!"Max cycles ({Numeral.str limit}) exceeded"

end Error
end RegisterMachine
