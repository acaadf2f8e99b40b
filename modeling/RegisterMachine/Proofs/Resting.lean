import RegisterMachine.Proofs.Reachable
import RegisterMachine.Proofs.Skipping

/-!
# Runs that come to rest

A run that is over is left as it is by every further step.  There is one other way to come to
rest: a run stands at an instruction with its limit spent, and the limit is too long for the
error about it to be made.  Such a run is stuck.  Every step raises another error, of which
the run takes no note.

**Contents.**
* `Run.Stuck`: a run that is left by an error about its limit.

**Results.**
* `Run.Stuck.step_eq`: every step of a stuck run raises the same error and changes nothing.
* `Run.Sound.stuck_of_spent`: a spent limit that cannot be shown makes a run stuck.
* `Run.Sound.next_eq_self_iff`: a run is at rest exactly if it is over or stuck.
-/

namespace RegisterMachine

/-- A machine that stands at an instruction does not move over any line. -/
theorem Machine.settle_settle {p : Program} {m : Machine} (hnonneg : 0 ≤ m.pc) :
    (m.settle p).settle p = m.settle p :=
  settle_eq (Int.le_trans hnonneg (pc_le_settle p m)) (.refl p _) (stops_settle hnonneg)

namespace Run

variable {r : Run} {limit : Option Int} {recording : Bool}

/-- A run that is left by an error about its limit: it stands at an instruction, and its limit
is spent and too long to be shown. -/
structure Stuck (limit : Option Int) (r : Run) : Prop where
  running : r.isOver = false
  ready : r.ready = r.machine
  instruction : ∃ i, r.program.instructionAt? r.ready.pc = some i
  limit : ∃ most, spent? limit r.machine.cycles = some most ∧ Numeral.isShowable most = false

namespace Stuck

/-- **A stuck run stays as it is,** and every step raises the same error. -/
theorem step_eq (h : r.Stuck limit) (recording : Bool) :
    r.step limit recording = (.escaped {}, r) := by
  obtain ⟨i, hi⟩ := h.instruction
  obtain ⟨most, hspent, hlong⟩ := h.limit
  rw [step_of_spent h.running hi hspent, exhausted_of_not_isShowable hlong, h.ready]

theorem next_eq (h : r.Stuck limit) (recording : Bool) : r.next limit recording = r := by
  rw [← step_eq_next, h.step_eq]

theorem outcome_eq (h : r.Stuck limit) : r.outcome = .escaped {} := by
  rw [outcome, abort_of_not_isOver h.running, not_finished_of_not_isOver h.running]
  rfl

end Stuck

/-- At a spent limit that cannot be shown, one step leads to a run that is stuck. -/
theorem Sound.stuck_of_spent (h : r.Sound) {i : Instruction} {most : Int}
    (hover : r.isOver = false) (hi : r.program.instructionAt? r.ready.pc = some i)
    (hspent : spent? limit r.machine.cycles = some most)
    (hlong : Numeral.isShowable most = false) (recording : Bool) :
    (r.next limit recording).Stuck limit := by
  have hnext : r.next limit recording = { r with machine := r.ready } := by
    rw [next_of_spent hover hi hspent, Abort.ofSpent_of_not_isShowable hlong,
      ← abort_of_not_isOver hover]
  have hready : Run.ready { r with machine := r.ready } = r.ready :=
    Machine.settle_settle h.machine.pc_nonneg
  have hlt := Machine.lt_size_of_instructionAt? hi
  rw [hnext]
  refine ⟨?_, hready, ⟨i, by rw [hready]; exact hi⟩, most, hspent, hlong⟩
  have hhalted : r.ready.halted = false := halted_of_not_isOver hover
  simp [isOver, Machine.finished, abort_of_not_isOver hover, hhalted, hlt]

/-- Moving behind the last line ends a run. -/
theorem Sound.isOver_ready (h : r.Sound) (hi : r.program.instructionAt? r.ready.pc = none) :
    isOver { r with machine := r.ready } = true := by
  have hsize := (Machine.instructionAt?_settle h.machine.pc_nonneg).mp hi
  simp [isOver, Machine.finished, ready, hsize]

/-- An attempt at an instruction counts it or breaks the run off. -/
theorem next_ne_of_attempt {i : Instruction} (hover : r.isOver = false)
    (hi : r.program.instructionAt? r.ready.pc = some i)
    (hspent : spent? limit r.machine.cycles = none) : r.next limit recording ≠ r := by
  intro hnext
  rcases i.execute_cases r.program r.ready with ⟨after, hperforms, heq⟩ | hfails
  · rw [next_of_execute hover hi hspent heq] at hnext
    have hcycles : after.cycles + 1 = r.machine.cycles :=
      congrArg (fun run => run.machine.cycles) hnext
    have hsame : after.cycles = r.machine.cycles := hperforms.cycles_eq
    omega
  · obtain ⟨fault, hfault⟩ := Option.ne_none_iff_exists'.mp hfails.fault_ne_none
    rw [next_of_attempt hover hi hspent, failureOf, hfault] at hnext
    have habort := congrArg Run.abort hnext
    rw [abort_of_not_isOver hover] at habort
    cases habort

/-- **A run is at rest** exactly if it is over or stuck. -/
theorem Sound.next_eq_self_iff (h : r.Sound) :
    r.next limit recording = r ↔ r.isOver = true ∨ r.Stuck limit := by
  constructor
  · intro hnext
    cases hover : r.isOver with
    | true =>
        exact .inl rfl
    | false =>
        cases hi : r.program.instructionAt? r.ready.pc with
        | none =>
            have hend := h.isOver_ready hi
            rw [← next_of_none hover hi, hnext, hover] at hend
            cases hend
        | some i =>
            cases hspent : spent? limit r.machine.cycles with
            | none =>
                exact absurd hnext (next_ne_of_attempt hover hi hspent)
            | some most =>
                cases hshort : Numeral.isShowable most with
                | true =>
                    rw [next_of_spent hover hi hspent, Abort.ofSpent_of_isShowable hshort] at hnext
                    have habort := congrArg Run.abort hnext
                    rw [abort_of_not_isOver hover] at habort
                    cases habort
                | false =>
                    have hstuck := h.stuck_of_spent hover hi hspent hshort recording
                    rw [hnext] at hstuck
                    exact .inr hstuck
  · rintro (hover | hstuck)
    · exact next_of_isOver hover
    · exact hstuck.next_eq recording

end Run
end RegisterMachine
