import RegisterMachine.Token

/-!
# Instructions

An instruction is read from the text of one line.  A line that asks for an
unknown operation, or gives an operation operands that do not suit it, is an
instruction too: it fails when it is executed, not when it is read.

**Contents.**
* `Defect`: why the operands of an operation do not suit it.
* `Instruction`: the operation, its operands, and the text it was read from.
* `Instruction.write`: the instruction written out from its parts.
* `Instruction.ofText`: reading; it fails only on a numeral that is too long.
-/

namespace RegisterMachine

/-- Why an instruction cannot be executed. -/
inductive Defect
  | empty
  | count (opcode : Opcode) (expected actual : Nat)
  | kind (opcode : Opcode) (slot : Slot) (operand : Operand)
  | stated (reason : Text)
deriving DecidableEq, Repr

namespace Defect

/-- The defect in words. -/
def reason : Defect → Text
  | .empty => "empty instruction".toList
  | .count opcode expected actual =>
      opcode.mnemonic ++ " expects ".toList ++ Numeral.write expected
        ++ " operand(s), got ".toList ++ Numeral.write actual
  | .kind opcode slot operand =>
      opcode.mnemonic ++ " expects a ".toList ++ slot.description
        ++ ", got ".toList ++ operand.write
  | .stated reason => reason

end Defect

/-- An instruction as it was read: `token` is the mnemonic as written and `text`
the line without its comment. -/
structure Instruction where
  opcode : Opcode
  operands : List Operand := []
  token : Text := []
  text : Text := []
  defect : Option Defect := none
deriving DecidableEq, Repr

namespace Instruction

/-- The text of an instruction, or its mnemonic if it has no text. -/
def display (i : Instruction) : Text :=
  if i.text = [] then i.token else i.text

/-- An instruction written out from its mnemonic and its operands. -/
def write (i : Instruction) : Text :=
  if i.token = [] then [] else Text.joined (i.token :: i.operands.map Operand.write)

/-- Fits operands into slots from the left; the first that does not suit its slot
is the defect. -/
def fitAll (opcode : Opcode) : List Slot → List Operand → Except Defect (List Operand)
  | slot :: slots, operand :: operands =>
      match slot.fit operand with
      | none => .error (.kind opcode slot operand)
      | some fitted => (fitAll opcode slots operands).map (fitted :: ·)
  | _, _ => .ok []

/-- The operands as an operation sees them, or why they do not suit it. -/
def check (opcode : Opcode) (operands : List Operand) : Except Defect (List Operand) :=
  match opcode.slots? with
  | none => .ok operands
  | some slots =>
      if operands.length = slots.length then fitAll opcode slots operands
      else .error (.count opcode slots.length operands.length)

/-- The instruction that a mnemonic and its operands make. -/
def ofOperands (text token : Text) (operands : List Operand) : Instruction :=
  let opcode := Opcode.ofToken token
  match check opcode operands with
  | .ok fitted => { opcode, operands := fitted, token, text }
  | .error defect => { opcode := .invalid, operands, token, text, defect := some defect }

/-- The instruction that a text denotes. -/
def ofText (text : Text) : Except TooLong Instruction :=
  match Token.split text with
  | [] => .ok { opcode := .invalid, text, defect := some .empty }
  | token :: arguments => (arguments.mapM Operand.ofToken).map (ofOperands text token)

end Instruction
end RegisterMachine
