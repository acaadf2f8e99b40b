import Mathlib.Logic.Relation
import RegisterMachine.Proofs.Hazard
import RegisterMachine.Proofs.Stepping

/-!
# Routines

What a piece of a program does can be said of machines alone, without the run that it is
part of.  There is a rule for each kind of instruction, and the rules are put together along
the lines of the program.

**Contents.**
* `Program.atHand?`: the next line with an instruction, and what the instruction does.
* `Machine.Executes`, `Machine.Leads`: one instruction that succeeds, and any number of them.
* `Machine.Stands`: a machine at a line, with the calls that it has to return from.
* `Machine.Goes`: a machine that is led to a line and keeps all but some registers.

**Results.**
* `Machine.Goes.trans`: one piece of a program behind the other.
* `Machine.Stands.assign`, `combine`, `test`, `jump`, `call`, `ret`, `write`, `halt`: the rules.
* `Run.exists_proceed_of_leads`: a run without a limit goes where its machine is led.
* `Program.run?_of_leads`: a whole run, from the first line to `END`.
-/

namespace RegisterMachine

/-- The next line with an instruction from a line on, and what the instruction does. -/
def Program.atHand? (p : Program) (pc : Int) : Option (Int × Action) :=
  let line := (({ pc } : Machine).settle p).pc
  (p.instructionAt? line).map fun i => (line, i.action)

namespace Machine

/-- One instruction that succeeds takes a machine to another. -/
inductive Executes (p : Program) (m : Machine) : Machine → Prop
  | intro {line : Int} {action : Action} {after : Machine} (hrunning : m.halted = false)
      (hat : p.atHand? m.pc = some (line, action))
      (hperforms : action.Performs p (m.jump line) after) : Executes p m after.tick

/-- Instructions that succeed, one behind the other, take a machine to another. -/
def Leads (p : Program) : Machine → Machine → Prop :=
  Relation.ReflTransGen (Executes p)

/-- A machine at a line, with the lines of the calls that it has to return from. -/
structure Stands (m : Machine) (pc : Int) (frames : List Int) : Prop where
  running : m.halted = false
  pc : m.pc = pc
  callStack : m.callStack = frames

/-- A machine that is led to a line without writing anything. -/
structure Goes (p : Program) (m : Machine) (pc : Int) (frames : List Int) (after : Machine) :
    Prop where
  leads : m.Leads p after
  stands : after.Stands pc frames
  output : after.output = m.output

@[simp] theorem eval_jump (m : Machine) (line : Int) (operand : Operand) :
    (m.jump line).eval operand = m.eval operand := by
  cases operand <;> rfl

@[simp] theorem rendered_jump (m : Machine) (line : Int) (operands : List Operand) :
    (m.jump line).rendered operands = m.rendered operands := by
  induction operands with
  | nil =>
      rfl
  | cons operand operands ih =>
      cases operand <;> simp only [rendered, render, eval_jump, ih]

variable {p : Program} {m mid after : Machine} {pc pc' line : Int} {frames frames' : List Int}

/-- **One piece of a program behind the other.** -/
theorem Goes.trans (h : Goes p m pc frames mid) (h' : Goes p mid pc' frames' after) :
    Goes p m pc' frames' after where
  leads := Relation.ReflTransGen.trans h.leads h'.leads
  stands := h'.stands
  output := h'.output.trans h.output

/-- The instruction at hand is the one that the next step finds. -/
theorem exists_of_atHand? {action : Action} (h : p.atHand? m.pc = some (line, action)) :
    ∃ i, p.instructionAt? (m.settle p).pc = some i ∧ i.action = action ∧
      m.settle p = m.jump line := by
  obtain ⟨i, hi, hline⟩ := Option.map_eq_some_iff.mp h
  cases hline
  exact ⟨i, hi, rfl, rfl⟩

namespace Stands

variable {action : Action} {name : Text} {source target : Operand} {value : Int} {index : Nat}

theorem executes (hm : m.Stands pc frames) (hat : p.atHand? pc = some (line, action))
    (h : action.Performs p (m.jump line) after) : m.Executes p after.tick :=
  .intro hm.running (hm.pc ▸ hat) h

/-- What an instruction leaves is where the next one begins. -/
theorem goes (hm : m.Stands pc frames) (hat : p.atHand? pc = some (line, action))
    (h : action.Performs p (m.jump line) after) (hafter : after.Stands pc' frames')
    (houtput : after.output = m.output) : Goes p m pc' frames' after.tick where
  leads := .single (hm.executes hat h)
  stands := ⟨hafter.running, hafter.pc, hafter.callStack⟩
  output := houtput

/-- The rule for `MOV`. -/
theorem assign (hm : m.Stands pc frames)
    (hat : p.atHand? pc = some (line, .assign (.register name) source))
    (hvalue : m.eval source = .ok value) :
    ∃ after, Goes p m (line + 1) frames after ∧
      after.registers = m.registers.put name (Word.wrap value) :=
  ⟨_, hm.goes hat (.assign rfl ((eval_jump m line source).trans hvalue))
    ⟨hm.running, rfl, hm.callStack⟩ rfl, rfl⟩

/-- The rule for `ADD`, `SUB`, `MUL` and `DIV`, and for `INC` and `DEC`. -/
theorem combine {operation : Arithmetic} {lhs rhs : Int} (hm : m.Stands pc frames)
    (hat : p.atHand? pc = some (line, .combine operation (.register name) source))
    (hlhs : m.read name = .ok lhs) (hrhs : m.eval source = .ok rhs)
    (hvalue : operation.apply lhs rhs = .ok value) :
    ∃ after, Goes p m (line + 1) frames after ∧
      after.registers = m.registers.put name (Word.wrap value) :=
  ⟨_, hm.goes hat (.combine rfl hlhs ((eval_jump m line source).trans hrhs) hvalue)
    ⟨hm.running, rfl, hm.callStack⟩ rfl, rfl⟩

/-- The rule for `JMP`. -/
theorem jump (hm : m.Stands pc frames) (hat : p.atHand? pc = some (line, .jump target))
    (hindex : p.locate target = .ok index) :
    ∃ after, Goes p m index frames after ∧ after.registers = m.registers :=
  ⟨_, hm.goes hat (.jump hindex) ⟨hm.running, rfl, hm.callStack⟩ rfl, rfl⟩

/-- The rule for `CMP` with a conditional jump behind it. -/
theorem test {relation : Relation} {lhs rhs : Operand} {a b next : Int}
    (hm : m.Stands pc frames) (hcompare : p.atHand? pc = some (line, .compare lhs rhs))
    (hbranch : p.atHand? (line + 1) = some (next, .branch relation target))
    (ha : m.eval lhs = .ok a) (hb : m.eval rhs = .ok b) (hindex : p.locate target = .ok index) :
    ∃ after, Goes p m (if relation.holds a b then index else next + 1) frames after ∧
      after.registers = m.registers := by
  have hcompared : Goes p m (line + 1) frames ((m.jump line).compare a b).advance.tick :=
    hm.goes hcompare (.compare ((eval_jump m line lhs).trans ha) ((eval_jump m line rhs).trans hb))
      ⟨hm.running, rfl, hm.callStack⟩ rfl
  cases hholds : relation.holds a b with
  | true =>
      have htaken := hcompared.stands.goes hbranch (.taken hindex rfl hholds)
        ⟨hm.running, rfl, hm.callStack⟩ rfl
      exact ⟨_, hcompared.trans htaken, rfl⟩
  | false =>
      have hpassed := hcompared.stands.goes hbranch (.passed hindex rfl hholds)
        ⟨hm.running, rfl, hm.callStack⟩ rfl
      exact ⟨_, hcompared.trans hpassed, rfl⟩

/-- The rule for `CALL`. -/
theorem call (hm : m.Stands pc frames) (hat : p.atHand? pc = some (line, .call target))
    (hindex : p.locate target = .ok index) :
    ∃ after, Goes p m index (line :: frames) after ∧ after.registers = m.registers :=
  ⟨_, hm.goes hat (.call hindex)
    ⟨hm.running, rfl, congrArg (line :: ·) hm.callStack⟩ rfl, rfl⟩

/-- The rule for `RET`. -/
theorem ret {call : Int} (hm : m.Stands pc (call :: frames))
    (hat : p.atHand? pc = some (line, .ret)) :
    ∃ after, Goes p m (call + 1) frames after ∧ after.registers = m.registers :=
  ⟨_, hm.goes hat (.ret hm.callStack) ⟨hm.running, rfl, rfl⟩ rfl, rfl⟩

/-- The rule for `MSG`. -/
theorem write {parts : List Operand} {text : Text} (hm : m.Stands pc frames)
    (hat : p.atHand? pc = some (line, .write parts)) (htext : m.rendered parts = (text, none)) :
    ∃ after, m.Leads p after ∧ after.Stands (line + 1) frames ∧
      after.output = m.output ++ text ∧ after.registers = m.registers := by
  have hrendered := (rendered_jump m line parts).trans htext
  have hexecutes := hm.executes hat (.write (congrArg Prod.snd hrendered))
  refine ⟨_, .single hexecutes, ⟨hm.running, rfl, hm.callStack⟩, ?_, rfl⟩
  rw [hrendered]
  exact output_append _ text

/-- The rule for `END`. -/
theorem halt (hm : m.Stands pc frames) (hat : p.atHand? pc = some (line, .halt)) :
    ∃ after, m.Leads p after ∧ after.halted = true ∧ after.result = some m.output ∧
      after.callStack = frames :=
  ⟨_, .single (hm.executes hat .halt), rfl, rfl, hm.callStack⟩

end Stands
end Machine

namespace Run

variable {r : Run} {after : Machine}

/-- A step of a run does to its machine what its instruction does. -/
theorem next_of_executes (habort : r.abort = none) (h : r.machine.Executes r.program after) :
    r.next none false = { r with machine := after } := by
  cases h with
  | intro hrunning hat hperforms =>
      obtain ⟨i, hi, haction, hready⟩ := Machine.exists_of_atHand? hat
      subst haction
      have hover : r.isOver = false := by
        have hsize := Machine.lt_size_of_instructionAt? hi
        have hle := Machine.pc_le_settle r.program r.machine
        have hlt : r.machine.pc < r.program.size := by omega
        simp [isOver, habort, Machine.finished, hrunning, hlt]
      refine next_of_execute hover hi rfl ?_
      rw [Instruction.execute, ready, hready, hperforms.perform_eq]
      rfl

/-- **A run without a limit goes where its machine is led.** -/
theorem exists_proceed_of_leads (habort : r.abort = none) (h : r.machine.Leads r.program after) :
    ∃ n, r.proceed none false n = { r with machine := after } := by
  induction h with
  | refl =>
      exact ⟨0, rfl⟩
  | tail _ hexecutes ih =>
      obtain ⟨n, hn⟩ := ih
      refine ⟨n + 1, ?_⟩
      rw [proceed_succ, hn]
      exact next_of_executes (r := { r with machine := _ }) habort hexecutes

end Run

/-- **A program ends as its machine does** when it is led to `END`. -/
theorem Program.run?_of_leads {p : Program} {after : Machine}
    (h : Machine.Leads p {} after) (hhalted : after.halted = true) :
    ∃ n, ∀ fuel, n ≤ fuel → p.run? none false fuel = some { program := p, machine := after } := by
  obtain ⟨n, hn⟩ := Run.exists_proceed_of_leads (r := .start p) rfl h
  have hover : ((Run.start p).proceed none false n).isOver = true := by
    rw [hn]
    simp [Run.isOver, Machine.finished, hhalted]
  refine ⟨n, fun fuel hfuel => ?_⟩
  rw [run?, Run.proceed_of_le hover hfuel, if_pos hover, hn]
  rfl

end RegisterMachine
