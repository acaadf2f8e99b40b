import RegisterMachine.Text.Capital

/-!
# Opcodes

The operations of the machine, the mnemonics that name them, and the operands
that each of them takes.

**Contents.**
* `Arithmetic`, `Relation`: the operations and tests on two integers.
* `Opcode`: all operations; `unknown` stands for a mnemonic that names none and
  `invalid` for an operation whose operands do not suit it.
* `Opcode.ofToken`: the operation that a token names, in any case.
* `Slot`, `Opcode.slots?`: the operands that an operation takes.
-/

namespace RegisterMachine

/-- The operations that replace a register by its value combined with another. -/
inductive Arithmetic
  | add
  | sub
  | mul
  | div
deriving DecidableEq, Repr

/-- The tests that a conditional jump makes on the compared values. -/
inductive Relation
  | ne
  | eq
  | ge
  | gt
  | le
  | lt
deriving DecidableEq, Repr

namespace Relation

/-- Whether a relation holds between two integers. -/
def holds : Relation → Int → Int → Bool
  | .ne, a, b => a != b
  | .eq, a, b => a == b
  | .ge, a, b => b ≤ a
  | .gt, a, b => b < a
  | .le, a, b => a ≤ b
  | .lt, a, b => a < b

end Relation

/-- The operations of the machine. -/
inductive Opcode
  | mov
  | inc
  | dec
  | arithmetic (operation : Arithmetic)
  | jump
  | compare
  | branch (relation : Relation)
  | call
  | ret
  | msg
  | halt
  | unknown
  | invalid
deriving DecidableEq, Repr

namespace Opcode

/-- The mnemonic of an operation. -/
def mnemonic : Opcode → Text
  | .mov => ['M', 'O', 'V']
  | .inc => ['I', 'N', 'C']
  | .dec => ['D', 'E', 'C']
  | .arithmetic .add => ['A', 'D', 'D']
  | .arithmetic .sub => ['S', 'U', 'B']
  | .arithmetic .mul => ['M', 'U', 'L']
  | .arithmetic .div => ['D', 'I', 'V']
  | .jump => ['J', 'M', 'P']
  | .compare => ['C', 'M', 'P']
  | .branch .ne => ['J', 'N', 'E']
  | .branch .eq => ['J', 'E']
  | .branch .ge => ['J', 'G', 'E']
  | .branch .gt => ['J', 'G']
  | .branch .le => ['J', 'L', 'E']
  | .branch .lt => ['J', 'L']
  | .call => ['C', 'A', 'L', 'L']
  | .ret => ['R', 'E', 'T']
  | .msg => ['M', 'S', 'G']
  | .halt => ['E', 'N', 'D']
  | .unknown => ['U', 'N', 'K', 'N', 'O', 'W', 'N']
  | .invalid => ['I', 'N', 'V', 'A', 'L', 'I', 'D']

/-- The operations that a program can ask for. -/
def genuine : List Opcode :=
  [.mov, .inc, .dec, .arithmetic .add, .arithmetic .sub, .arithmetic .mul,
    .arithmetic .div, .jump, .compare, .branch .ne, .branch .eq, .branch .ge,
    .branch .gt, .branch .le, .branch .lt, .call, .ret, .msg, .halt]

/-- All operations, the two that only fail included. -/
def all : List Opcode :=
  genuine ++ [.unknown, .invalid]

/-- The operation that has a given mnemonic, letter for letter. -/
def ofMnemonic? (t : Text) : Option Opcode :=
  all.find? fun o => o.mnemonic == t

/-- The operation that a token names; letter case does not count. -/
def ofToken (token : Text) : Opcode :=
  (genuine.find? fun o => o.mnemonic == Text.capitals token).getD .unknown

end Opcode

/-- What an operation expects in one place of its operand list. -/
inductive Slot
  | register
  | value
  | target
deriving DecidableEq, Repr

namespace Slot

/-- What a slot expects, in words. -/
def description : Slot → Text
  | .register => "register".toList
  | .value => "register or integer".toList
  | .target => "label".toList

end Slot

namespace Opcode

/-- The slots of an operation; `none` if it takes any operands. -/
def slots? : Opcode → Option (List Slot)
  | .mov => some [.register, .value]
  | .inc => some [.register]
  | .dec => some [.register]
  | .arithmetic _ => some [.register, .value]
  | .jump => some [.target]
  | .compare => some [.value, .value]
  | .branch _ => some [.target]
  | .call => some [.target]
  | .ret => some []
  | .msg => none
  | .halt => some []
  | .unknown => none
  | .invalid => none

theorem mem_all (o : Opcode) : o ∈ all := by
  cases o with
  | arithmetic operation => cases operation <;> decide
  | branch relation => cases relation <;> decide
  | _ => decide

end Opcode
end RegisterMachine
