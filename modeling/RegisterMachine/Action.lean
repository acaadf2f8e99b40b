import RegisterMachine.Machine

/-!
# Actions

An action is what an instruction does, with its operands told apart by what they
are for.  Its effect on a machine is defined by cases on the action alone.

**Contents.**
* `Action`: what an instruction does; `INC` and `DEC` add and subtract one.
* `Instruction.action`: the action of an instruction; a wrong number of operands
  makes it fail.
* `Arithmetic.apply`: the operations on integers of any size; `Arithmetic.quotient`
  rounds toward zero.
* `Action.perform`: the effect on a machine.  A failing action leaves the machine
  as it was, except that `MSG` keeps what it wrote before the operand that it
  could not write.
* `Instruction.execute`: performing the action, and counting it if it succeeds.
-/

namespace RegisterMachine

/-- What an instruction does. -/
inductive Action
  | assign (destination source : Operand)
  | combine (operation : Arithmetic) (destination source : Operand)
  | compare (lhs rhs : Operand)
  | jump (target : Operand)
  | branch (relation : Relation) (target : Operand)
  | call (target : Operand)
  | ret
  | write (parts : List Operand)
  | halt
  | fail (fault : Fault)
deriving DecidableEq, Repr

namespace Action

/-- The action with one operand, out of a list that has to hold just that. -/
def unary (f : Operand → Action) : List Operand → Action
  | [a] => f a
  | operands => .fail (.operandCount 1 operands.length)

/-- The action with two operands, out of a list that has to hold just those. -/
def binary (f : Operand → Operand → Action) : List Operand → Action
  | [a, b] => f a b
  | operands => .fail (.operandCount 2 operands.length)

end Action

namespace Instruction

/-- The reason given for an instruction that is malformed when no other is known. -/
def unsuited : Text := "invalid operands".toList

/-- The reason why an instruction is malformed. -/
def complaint (i : Instruction) : Text :=
  match i.defect with
  | none => unsuited
  | some defect => if defect.reason = [] then unsuited else defect.reason

/-- The action of an instruction. -/
def action (i : Instruction) : Action :=
  match i.opcode with
  | .mov => .binary .assign i.operands
  | .inc => .unary (.combine .add · (.integer 1)) i.operands
  | .dec => .unary (.combine .sub · (.integer 1)) i.operands
  | .arithmetic operation => .binary (.combine operation) i.operands
  | .compare => .binary .compare i.operands
  | .jump => .unary .jump i.operands
  | .branch relation => .unary (.branch relation) i.operands
  | .call => .unary .call i.operands
  | .ret => .ret
  | .msg => .write i.operands
  | .halt => .halt
  | .unknown => .fail (.unknownOpcode i.token)
  | .invalid => .fail (.malformed i.complaint)

end Instruction

namespace Arithmetic

/-- The quotient of integers of any size, rounded toward zero: that of their absolute
values, with a minus sign if just one of them is negative. -/
def quotient (a b : Int) : Except Fault Int :=
  if b = 0 then .error (.ofDividend a)
  else
    let size : Nat := a.natAbs / b.natAbs
    .ok (if a < 0 ↔ b < 0 then size else -size)

/-- The value of an operation on integers of any size. -/
def apply : Arithmetic → Int → Int → Except Fault Int
  | .add, a, b => .ok (a + b)
  | .sub, a, b => .ok (a - b)
  | .mul, a, b => .ok (a * b)
  | .div, a, b => quotient a b

theorem quotient_zero (a : Int) : quotient a 0 = .error (.ofDividend a) := by
  rfl

theorem quotient_of_ne_zero (a : Int) {b : Int} (h : b ≠ 0) :
    quotient a b = .ok (a.tdiv b) := by
  have hneg (n : Nat) : Int.negSucc n < 0 := Int.negSucc_lt_zero n
  have hnonneg (n : Nat) : ¬ Int.ofNat n < 0 := Int.not_lt.mpr (Int.natCast_nonneg n)
  rw [quotient, if_neg h]
  show Except.ok (if a < 0 ↔ b < 0 then ((a.natAbs / b.natAbs : Nat) : Int)
    else -((a.natAbs / b.natAbs : Nat) : Int)) = _
  cases a with
  | ofNat a =>
      cases b with
      | ofNat b =>
          rw [if_pos (iff_of_false (hnonneg a) (hnonneg b))]
          rfl
      | negSucc b =>
          rw [if_neg (mt Iff.mpr fun hpos => hnonneg a (hpos (hneg b)))]
          rfl
  | negSucc a =>
      cases b with
      | ofNat b =>
          rw [if_neg (mt Iff.mp fun hpos => hnonneg b (hpos (hneg a)))]
          rfl
      | negSucc b =>
          rw [if_pos (iff_of_true (hneg a) (hneg b))]
          rfl

end Arithmetic

namespace Operand

/-- The name that an operand holds; a literal in the place of a name is a fault. -/
def name : Operand → Except Fault Text
  | .integer _ => .error (.nameless .integer)
  | .text _ => .error (.nameless .text)
  | .label name => .ok name
  | .register name => .ok name

end Operand

/-- The machine that an action leaves, and its fault if it failed. -/
structure Attempt where
  machine : Machine
  fault : Option Fault := none
deriving DecidableEq, Repr

namespace Attempt

/-- An attempt that changes the machine only if it succeeds. -/
def ofResult (m : Machine) : Except Fault Machine → Attempt
  | .ok after => { machine := after }
  | .error fault => { machine := m, fault := some fault }

/-- Counts an attempt that succeeded. -/
def counted (a : Attempt) : Attempt :=
  match a.fault with
  | none => { machine := a.machine.tick }
  | some _ => a

end Attempt

namespace Machine

/-- The integer that an operand stands for: a literal itself, or the value of the
register of that name. -/
def eval (m : Machine) : Operand → Except Fault Int
  | .integer n => .ok n
  | .text _ => .error (.nameless .text)
  | .label name => m.read name
  | .register name => m.read name

/-- The text that an operand adds to the output: its content, or the numeral of its
value unless that is too long to be shown. -/
def render (m : Machine) : Operand → Except Fault Text
  | .text content => .ok content
  | operand => do
      let value ← m.eval operand
      (Numeral.shown value).mapError Fault.unshowable

/-- Writes operands to the output up to the first that cannot be rendered. -/
def write (m : Machine) : List Operand → Attempt
  | [] => { machine := m.advance }
  | operand :: operands =>
      match m.render operand with
      | .ok text => (m.append text).write operands
      | .error fault => { machine := m, fault := some fault }

/-- Replaces a register by the value of an operand. -/
def assign (m : Machine) (destination source : Operand) : Except Fault Machine := do
  let name ← destination.name
  let value ← m.eval source
  return (m.set name value).advance

/-- Replaces a register by its value combined with another. -/
def combine (m : Machine) (operation : Arithmetic) (destination source : Operand) :
    Except Fault Machine := do
  let name ← destination.name
  let lhs ← m.read name
  let rhs ← m.eval source
  let value ← operation.apply lhs rhs
  return (m.set name value).advance

/-- Remembers the values of two operands. -/
def compareOperands (m : Machine) (lhs rhs : Operand) : Except Fault Machine := do
  let a ← m.eval lhs
  let b ← m.eval rhs
  return (m.compare a b).advance

end Machine

namespace Program

/-- The line that an operand leads to. -/
def locate (p : Program) (target : Operand) : Except Fault Nat := do
  let name ← target.name
  p.resolve name

end Program

namespace Machine

/-- Goes to a label if the remembered comparison satisfies a relation.  The label
is looked up first. -/
def branch (p : Program) (m : Machine) (relation : Relation) (target : Operand) :
    Except Fault Machine := do
  let index ← p.locate target
  let values ← m.compared (Opcode.branch relation).mnemonic
  return if relation.holds values.1 values.2 then m.jump index else m.advance

/-- Goes to a label and remembers where it came from. -/
def call (p : Program) (m : Machine) (target : Operand) : Except Fault Machine := do
  let index ← p.locate target
  return (m.push m.pc).jump index

/-- Goes to the line behind the innermost call. -/
def ret (m : Machine) : Except Fault Machine := do
  let (index, rest) ← m.pop
  return rest.jump (index + 1)

end Machine

namespace Action

/-- The effect of an action on a machine. -/
def perform (p : Program) (m : Machine) : Action → Attempt
  | .assign destination source => .ofResult m (m.assign destination source)
  | .combine operation destination source =>
      .ofResult m (m.combine operation destination source)
  | .compare lhs rhs => .ofResult m (m.compareOperands lhs rhs)
  | .jump target => .ofResult m ((p.locate target).map fun index => m.jump index)
  | .branch relation target => .ofResult m (m.branch p relation target)
  | .call target => .ofResult m (m.call p target)
  | .ret => .ofResult m m.ret
  | .write parts => m.write parts
  | .halt => { machine := m.finish }
  | .fail fault => { machine := m, fault := some fault }

end Action

namespace Instruction

/-- Executes an instruction: its action, counted if it succeeds. -/
def execute (p : Program) (i : Instruction) (m : Machine) : Attempt :=
  (i.action.perform p m).counted

end Instruction
end RegisterMachine
