import RegisterMachine.Proofs.Frame

/-!
# The comparison of a run

A conditional jump tests two values that a `CMP` has remembered.  They are the values that
the operands had when the last `CMP` was executed, whatever has been written to registers,
jumped over or called since.

**Contents.**
* `Relation.Relates`: what a conditional jump asks of two integers.
* `Execution.compared?`, `Execution.lastCompared?`: the values of one `CMP`, and those of the
  last one among executed instructions.
* `Run.Remembers`: what the executed instructions have to do with the comparison of a run.

**Results.**
* `Execution.lastCompared?_eq_none_iff`, `Execution.lastCompared?_of_split`: which values are
  the last ones.
* `Run.Remembers.step`: one step keeps `Remembers`.
* `Program.LaidOut.remembers_course`: it holds along every course.
* `Program.comparison_eq_compared`: the comparison of every run, and what is done with it.
-/

namespace RegisterMachine

/-- What a conditional jump asks of the compared integers. -/
def Relation.Relates : Relation → Int → Int → Prop
  | .ne, a, b => a ≠ b
  | .eq, a, b => a = b
  | .ge, a, b => a ≥ b
  | .gt, a, b => a > b
  | .le, a, b => a ≤ b
  | .lt, a, b => a < b

theorem Relation.holds_iff {relation : Relation} {a b : Int} :
    relation.holds a b = true ↔ relation.Relates a b := by
  cases relation <;> simp [holds, Relates]

instance (relation : Relation) (a b : Int) : Decidable (relation.Relates a b) :=
  decidable_of_iff _ Relation.holds_iff

namespace Execution

/-- The values that a `CMP` compared. -/
def compared? (e : Execution) : Option (Int × Int) :=
  if e.instruction.opcode = .compare then
    (e.instruction.operandValue? e.machine 0).bind fun a =>
      (e.instruction.operandValue? e.machine 1).map fun b => (a, b)
  else none

/-- The values that the last `CMP` compared. -/
def lastCompared? (es : List Execution) : Option (Int × Int) :=
  es.reverse.findSome? compared?

variable {e : Execution} {es : List Execution}

theorem compared?_of_ne (h : e.instruction.opcode ≠ .compare) : e.compared? = none := by
  simp [compared?, h]

theorem lastCompared?_concat (es : List Execution) (e : Execution) :
    lastCompared? (es ++ [e]) = e.compared?.or (lastCompared? es) := by
  cases h : e.compared? <;> simp [lastCompared?, List.reverse_append, h]

/-- There are no last values exactly if no `CMP` has compared any. -/
theorem lastCompared?_eq_none_iff : lastCompared? es = none ↔ ∀ e ∈ es, e.compared? = none := by
  simp [lastCompared?, List.findSome?_eq_none_iff]

/-- The last values are those of a `CMP` with none behind it. -/
theorem lastCompared?_of_split {before after : List Execution} {values : Int × Int}
    (hvalues : e.compared? = some values)
    (hlast : ∀ later ∈ after, later.instruction.opcode ≠ .compare) :
    lastCompared? (before ++ e :: after) = some values := by
  have hafter : after.reverse.findSome? compared? = none :=
    lastCompared?_eq_none_iff.mpr fun later hlater => compared?_of_ne (hlast later hlater)
  simp [lastCompared?, List.reverse_append, List.findSome?_append, hafter, hvalues]

end Execution

namespace Instruction

variable {i : Instruction} {p : Program} {m after : Machine}

/-- The values that a comparison remembers are those of its operands. -/
theorem Decoded.compared_of_performs (hi : i.Decoded) (h : i.action.Performs p m after)
    (hopcode : i.opcode = .compare) :
    ∃ lhs rhs a b, i.operands = [lhs, rhs] ∧ m.value? lhs = some a ∧ m.value? rhs = some b ∧
      after.comparison = some (a, b) := by
  have hform := hi.form
  generalize i.action = action at h hform
  cases hform with
  | @compare lhs rhs _ hoperands hlhs hrhs =>
      cases h with
      | @compare _ _ a b ha hb =>
          exact ⟨lhs, rhs, a, b, hoperands, Machine.value?_of_eval hlhs ha,
            Machine.value?_of_eval hrhs hb, rfl⟩
  | _ hother =>
      rw [hopcode] at hother
      cases hother

/-- A comparison is remembered, and any other instruction leaves what is remembered. -/
theorem Decoded.comparison_eq_or (hi : i.Decoded) (h : i.action.Performs p m after) :
    after.comparison = (Execution.compared? ⟨m, i⟩).or m.comparison := by
  by_cases hopcode : i.opcode = .compare
  · obtain ⟨lhs, rhs, a, b, hoperands, ha, hb, hafter⟩ := hi.compared_of_performs h hopcode
    simp [Execution.compared?, operandValue?, hopcode, hoperands, ha, hb, hafter]
  · rw [Execution.compared?_of_ne hopcode, Option.none_or, hi.comparison_of_performs h hopcode]

/-- **What a conditional jump with a defined target does**, on a machine that remembers two
values or none. -/
theorem Decoded.execute_of_branch (hi : i.Decoded) {relation : Relation} {target : Nat}
    (hopcode : i.opcode = .branch relation) (htarget : i.targetLine? p = some target) :
    i.execute p m =
      match m.comparison with
      | none => { machine := m, fault := some (.noComparison i.opcode.mnemonic) }
      | some (a, b) =>
          { machine := (if relation.holds a b then m.jump target else m.advance).tick } := by
  obtain ⟨operand, hoperands, hlabel⟩ := hi.unary (by rw [hopcode]; rfl)
  cases hlabel with
  | target name =>
      have hname : p.labels.get? name = some target := by
        simpa [targetLine?, target?, hopcode, hoperands, Operand.label?] using htarget
      have haction : i.action = .branch relation (.label name) := by
        simp [action, hopcode, hoperands, Action.unary]
      rw [execute, haction, hopcode]
      cases hcomparison : m.comparison <;>
        simp [Action.perform, Machine.branch, Action.locate_label, hname, Machine.compared,
          hcomparison, bind, Except.bind, pure, Except.pure, Attempt.ofResult, Attempt.counted]

end Instruction

theorem Action.Fails.comparison_eq {m : Machine} {a : Action} {attempt : Attempt}
    (h : a.Fails m attempt) : attempt.machine.comparison = m.comparison := by
  cases h <;> rfl

namespace Run

/-- What the executed instructions have to do with the comparison of a run. -/
structure Remembers (es : List Execution) (r : Run) : Prop where
  /-- The comparison is that of the last `CMP`. -/
  comparison : r.machine.comparison = Execution.lastCompared? es
  /-- Every `CMP` has compared the values of two operands. -/
  compared : ∀ e ∈ es, e.instruction.opcode = .compare →
    ∃ lhs rhs a b, e.instruction.operands = [lhs, rhs] ∧ e.machine.value? lhs = some a ∧
      e.machine.value? rhs = some b ∧ e.compared? = some (a, b)

variable {es : List Execution} {r after : Run}

theorem Stalls.comparison_eq (h : r.Stalls after) :
    after.machine.comparison = r.machine.comparison := by
  cases h with
  | failed _ _ hfails _ =>
      exact hfails.comparison_eq
  | _ =>
      rfl

namespace Remembers

theorem initial (p : Program) : Remembers [] (start p) where
  comparison := rfl
  compared := by simp

/-- **One step keeps what the executed instructions have to do with the comparison.** -/
theorem step (h : Remembers es r) (hsound : r.Sound) (limit : Option Int) (recording : Bool) :
    Remembers (es ++ (r.execution? limit recording).toList) (r.next limit recording) := by
  rcases step_cases limit recording r with
    ⟨i, after, hexecution, -, hi, hperforms, hnext⟩ | ⟨hnone, hstalls⟩
  · have hdecoded := hsound.laidOut.decoded r.ready.pc i hi
    have hready : r.ready.comparison = Execution.lastCompared? es := h.comparison
    rw [hexecution, hnext, Option.toList_some]
    constructor
    · show after.comparison = _
      rw [hdecoded.comparison_eq_or hperforms, Execution.lastCompared?_concat, hready]
    · intro e he hopcode
      rcases List.mem_append.mp he with he | he
      · exact h.compared e he hopcode
      · rw [List.mem_singleton.mp he] at hopcode ⊢
        replace hopcode : i.opcode = .compare := hopcode
        obtain ⟨lhs, rhs, a, b, hoperands, ha, hb, -⟩ :=
          hdecoded.compared_of_performs hperforms hopcode
        refine ⟨lhs, rhs, a, b, hoperands, ha, hb, ?_⟩
        simp [Execution.compared?, Instruction.operandValue?, hopcode, hoperands, ha, hb]
  · rw [hnone, Option.toList_none, List.append_nil]
    exact ⟨hstalls.comparison_eq.trans h.comparison, h.compared⟩

/-- Nothing is remembered exactly if no `CMP` has been executed. -/
theorem comparison_eq_none_iff (h : Remembers es r) :
    r.machine.comparison = none ↔ ∀ e ∈ es, e.instruction.opcode ≠ .compare := by
  rw [h.comparison, Execution.lastCompared?_eq_none_iff]
  constructor
  · intro hnone e he hopcode
    obtain ⟨_, _, a, b, -, -, -, hsome⟩ := h.compared e he hopcode
    rw [hnone e he] at hsome
    cases hsome
  · intro hnever e he
    exact Execution.compared?_of_ne (hnever e he)

end Remembers
end Run

namespace Program

variable {p : Program}

theorem LaidOut.remembers_course (h : p.LaidOut) (s : Schedule) (n : Nat) :
    Run.Remembers (p.executions s n) (p.course s n) := by
  induction n with
  | zero =>
      exact .initial p
  | succ n ih =>
      rw [executions_succ, course_succ]
      exact ih.step (h.sound_course s n) (s.limit n) (s.recording n)

/-- **Conditional jumps test the last executed `CMP`.**  A run remembers the values that the
operands of the last `CMP` had when it was executed, and nothing if there was none.  A
conditional jump with a defined target that is executed then, on the machine as it stands or
behind the lines without instruction, fails exactly if there was no `CMP`, and otherwise goes
to its target or to the next line, as the remembered values decide. -/
theorem comparison_eq_compared {source : Text} (h : ofSource source = .ok p) (s : Schedule)
    (n : Nat) :
    ((p.course s n).machine.comparison = none ↔
      ∀ e ∈ p.executions s n, e.instruction.opcode ≠ .compare) ∧
    (∀ before e after, p.executions s n = before ++ e :: after →
      e.instruction.opcode = .compare →
      (∀ later ∈ after, later.instruction.opcode ≠ .compare) →
        ∃ lhs rhs a b, e.instruction.operands = [lhs, rhs] ∧
          e.machine.value? lhs = some a ∧ e.machine.value? rhs = some b ∧
          (p.course s n).machine.comparison = some (a, b)) ∧
    (∀ m, m = (p.course s n).machine ∨ m = (p.course s n).ready →
      ∀ text i relation target, Instruction.ofText text = .ok i →
        i.opcode = .branch relation → i.targetLine? p = some target →
          ((i.execute p m).fault = some (.noComparison i.opcode.mnemonic) ↔
            ∀ e ∈ p.executions s n, e.instruction.opcode ≠ .compare) ∧
          (∀ a b, (p.course s n).machine.comparison = some (a, b) →
            (i.execute p m).fault = none ∧
            (i.execute p m).machine.pc =
              if relation.Relates a b then (target : Int) else m.pc + 1)) := by
  have hremembers := (laidOut_ofSource h).remembers_course s n
  have hnone := hremembers.comparison_eq_none_iff
  refine ⟨hnone, ?_, ?_⟩
  · intro before e after hsplit hopcode hlast
    have hmem : e ∈ p.executions s n := by
      simp [hsplit]
    obtain ⟨lhs, rhs, a, b, hoperands, ha, hb, hvalues⟩ := hremembers.compared e hmem hopcode
    refine ⟨lhs, rhs, a, b, hoperands, ha, hb, ?_⟩
    rw [hremembers.comparison, hsplit, Execution.lastCompared?_of_split hvalues hlast]
  · intro m hm text i relation target hread hopcode htarget
    have hcomparison : m.comparison = (p.course s n).machine.comparison := by
      rcases hm with rfl | rfl <;> rfl
    have hexecute := (Instruction.decoded_ofText hread).execute_of_branch (m := m) hopcode htarget
    rw [hcomparison] at hexecute
    constructor
    · rw [← hnone]
      cases hvalues : (p.course s n).machine.comparison <;> simp [hexecute, hvalues]
    · intro a b hvalues
      rw [hvalues] at hexecute
      simp only [hexecute, ← Relation.holds_iff, true_and]
      split <;> rfl

/-- A jump in a subroutine that tests a comparison made before the call, although the compared
register has been written since. -/
theorem comparison_eq_compared_stale :
    ∃ p i, ofSource "mov a,1\ncmp a,2\ncall f\nend\nf:\nmov a,3\njl g\nret\ng:\nmsg a".toList =
        .ok p ∧
      p.instructionAt? (p.course (.constant none false) 4).ready.pc = some i ∧
      (p.course (.constant none false) 4).machine.registers = [(['a'], 3)] ∧
      (p.course (.constant none false) 4).machine.comparison = some (1, 2) ∧
      (i.execute p (p.course (.constant none false) 4).ready).machine.pc = 8 := by
  obtain ⟨p, hp⟩ : ∃ p, p =
      ({ lines :=
          [.instruction { opcode := .mov, operands := [.register ['a'], .integer 1],
                          token := "mov".toList, text := "mov a,1".toList },
            .instruction { opcode := .compare, operands := [.register ['a'], .integer 2],
                           token := "cmp".toList, text := "cmp a,2".toList },
            .instruction { opcode := .call, operands := [.label ['f']],
                           token := "call".toList, text := "call f".toList },
            .instruction { opcode := .halt, operands := [],
                           token := "end".toList, text := "end".toList },
            .label ['f'],
            .instruction { opcode := .mov, operands := [.register ['a'], .integer 3],
                           token := "mov".toList, text := "mov a,3".toList },
            .instruction { opcode := .branch .lt, operands := [.label ['g']],
                           token := "jl".toList, text := "jl g".toList },
            .instruction { opcode := .ret, operands := [],
                           token := "ret".toList, text := "ret".toList },
            .label ['g'],
            .instruction { opcode := .msg, operands := [.register ['a']],
                           token := "msg".toList, text := "msg a".toList }]
         labels := [(['f'], 4), (['g'], 8)] } : Program) := ⟨_, rfl⟩
  obtain ⟨i, hi⟩ : ∃ i, i =
      ({ opcode := .branch .lt, operands := [.label ['g']],
         token := "jl".toList, text := "jl g".toList } : Instruction) := ⟨_, rfl⟩
  have hsource :
      ofSource "mov a,1\ncmp a,2\ncall f\nend\nf:\nmov a,3\njl g\nret\ng:\nmsg a".toList =
        .ok p := by
    subst hp
    decide +kernel
  have hread : Instruction.ofText "jl g".toList = .ok i := by
    subst hi
    decide +kernel
  have hat : p.instructionAt? (p.course (.constant none false) 4).ready.pc = some i := by
    subst hp hi
    decide +kernel
  have hregisters : (p.course (.constant none false) 4).machine.registers = [(['a'], 3)] := by
    subst hp
    decide +kernel
  have hcompared : (p.course (.constant none false) 4).machine.comparison = some (1, 2) := by
    subst hp
    decide +kernel
  refine ⟨p, i, hsource, hat, hregisters, hcompared, ?_⟩
  obtain ⟨-, -, hbranch⟩ := comparison_eq_compared hsource (.constant none false) 4
  obtain ⟨-, htests⟩ := hbranch _ (.inr rfl) _ i .lt 8 hread (by rw [hi]) (by subst hp hi; rfl)
  exact (htests 1 2 hcompared).2

end Program
end RegisterMachine
