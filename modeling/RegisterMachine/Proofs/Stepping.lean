import Mathlib.Logic.Function.Iterate
import RegisterMachine.Proofs.Effect
import RegisterMachine.Run

/-!
# Stepping through a run

A run goes on step by step until it is over.  One step of a run that is not over
does one of four things, and a whole run is the iteration of such steps.

**Contents.**
* `Abort.ofSpent`: the end that a spent limit puts to a run.
* `Run.next`: the run after one more step, or the run itself if it is over.
* `Run.Moves`: the four things that a step can do.

**Results.**
* `Machine.instructionAt?_settle`: only behind the last line is nothing to execute.
* `Run.exists_refused_of_isOver`, `Run.step_of_not_isOver`: what a step does.
* `Run.moves_next`: a run that is not over moves.
* `Run.proceed_eq_iterate`: a bounded number of steps is an iteration.
* `Run.proceed_of_next_eq`: a run that a step leaves as it is stays so.
* `Run.proceed_of_le`: a run that is over stays as it is.
-/

namespace RegisterMachine
namespace Machine

variable {p : Program} {m : Machine}

/-- The line behind leading lines without instruction has one. -/
theorem isNoop_of_getElem?_takeWhile {lines : List Line} {line : Line}
    (h : lines[(lines.takeWhile Line.isNoop).length]? = some line) : line.isNoop = false := by
  induction lines with
  | nil =>
      simp at h
  | cons first lines ih =>
      cases hfirst : first.isNoop with
      | true =>
          simp only [List.takeWhile_cons, hfirst, if_true, List.length_cons,
            List.getElem?_cons_succ] at h
          exact ih h
      | false =>
          simp only [List.takeWhile_cons, hfirst, Bool.false_eq_true, if_false, List.length_nil,
            List.getElem?_cons_zero, Option.some.injEq] at h
          rw [← h]
          exact hfirst

theorem pc_le_settle (p : Program) (m : Machine) : m.pc ≤ (m.settle p).pc := by
  simp only [settle, jump]
  omega

theorem settle_le_size (hnonneg : 0 ≤ m.pc) (hle : m.pc ≤ p.size) :
    (m.settle p).pc ≤ p.size := by
  have hlength := (List.takeWhile_prefix Line.isNoop (l := p.lines.drop m.pc.toNat)).length_le
  rw [List.length_drop] at hlength
  simp only [settle, jump, Program.size] at hle ⊢
  omega

/-- There is nothing to execute only behind the last line. -/
theorem instructionAt?_settle (hnonneg : 0 ≤ m.pc) :
    p.instructionAt? (m.settle p).pc = none ↔ p.size ≤ (m.settle p).pc := by
  have hpc : (m.settle p).pc.toNat =
      m.pc.toNat + ((p.lines.drop m.pc.toNat).takeWhile Line.isNoop).length := by
    simp only [settle, jump]
    omega
  have hsize : (p.size : Int) ≤ (m.settle p).pc ↔ p.lines[(m.settle p).pc.toNat]? = none := by
    have hle := pc_le_settle p m
    rw [List.getElem?_eq_none_iff, Program.size]
    omega
  rw [hsize, Program.instructionAt?]
  cases hline : p.lines[(m.settle p).pc.toNat]? with
  | none =>
      simp
  | some line =>
      rw [hpc, ← List.getElem?_drop] at hline
      have hnoop := isNoop_of_getElem?_takeWhile hline
      cases line <;> simp_all [Line.isNoop, Line.instruction?]

theorem lt_size_of_instructionAt? {pc : Int} {i : Instruction}
    (h : p.instructionAt? pc = some i) : pc < p.size := by
  obtain ⟨line, hline, -⟩ := Option.bind_eq_some_iff.mp h
  obtain ⟨hlt, -⟩ := List.getElem?_eq_some_iff.mp hline
  rw [Program.size]
  omega

theorem settle_of_size_le (h : p.size ≤ m.pc) : m.settle p = m := by
  have hdrop : p.lines.drop m.pc.toNat = [] := by
    apply List.drop_eq_nil_of_le
    rw [Program.size] at h
    omega
  simp [settle, jump, hdrop]

end Machine

namespace Abort

/-- The end that a spent limit puts to a run.  There is none if the limit cannot be shown. -/
def ofSpent (most : Int) : Option Abort :=
  (ofLimit most).toOption

theorem ofSpent_of_isShowable {most : Int} (h : Numeral.isShowable most = true) :
    ofSpent most = some (.exhausted most) := by
  rw [ofSpent, ofLimit_of_isShowable h]
  rfl

theorem ofSpent_of_not_isShowable {most : Int} (h : Numeral.isShowable most = false) :
    ofSpent most = none := by
  rw [ofSpent, ofLimit_of_not_isShowable h]
  rfl

theorem ofSpent_eq_some {most : Int} {cause : Abort} (h : ofSpent most = some cause) :
    cause = .exhausted most := by
  cases hshort : Numeral.isShowable most with
  | true =>
      rw [ofSpent_of_isShowable hshort] at h
      exact (Option.some.inj h).symm
  | false =>
      rw [ofSpent_of_not_isShowable hshort] at h
      cases h

end Abort

namespace Run

variable {limit : Option Int} {recording : Bool} {r : Run}

/-- The run after one more step, or the run itself if it is over. -/
def next (limit : Option Int) (recording : Bool) (r : Run) : Run :=
  if r.isOver then r else (r.step limit recording).2

/-- The machine of a run at the next line with an instruction. -/
def ready (r : Run) : Machine :=
  r.machine.settle r.program

/-- The history of a run with one more attempt at an instruction. -/
def recorded (recording : Bool) (i : Instruction) (r : Run) : List Entry :=
  if recording then entryOf recording i r.ready (i.execute r.program r.ready) :: r.history
  else r.history

/-- What a step can do to a run that is not over. -/
inductive Moves (limit : Option Int) (recording : Bool) (r : Run) : Run → Prop
  | ranOff (hi : r.program.instructionAt? r.ready.pc = none) :
      Moves limit recording r { r with machine := r.ready }
  | exhausted {i : Instruction} {most : Int} (hi : r.program.instructionAt? r.ready.pc = some i)
      (hspent : spent? limit r.machine.cycles = some most) :
      Moves limit recording r { r with machine := r.ready, abort := Abort.ofSpent most }
  | executed {i : Instruction} {after : Machine}
      (hi : r.program.instructionAt? r.ready.pc = some i)
      (hspent : spent? limit r.machine.cycles = none)
      (hperforms : i.action.Performs r.program r.ready after) :
      Moves limit recording r
        { r with machine := after.tick, history := recorded recording i r }
  | failed {i : Instruction} {attempt : Attempt} {fault : Fault}
      (hi : r.program.instructionAt? r.ready.pc = some i)
      (hspent : spent? limit r.machine.cycles = none)
      (hfails : i.action.Fails r.ready attempt) (hfault : attempt.fault = some fault) :
      Moves limit recording r
        { r with
          machine := attempt.machine
          history := recorded recording i r
          abort := some (.failed
            { fault, line := some r.ready.pc, source := some i.text,
              output := attempt.machine.output }) }

theorem isOver_iff : r.isOver = true ↔
    r.abort.isSome = true ∨ r.machine.halted = true ∨ r.program.size ≤ r.machine.pc := by
  simp only [isOver, Machine.finished, Bool.or_eq_true, decide_eq_true_eq]

theorem outcome_eq_aborted_iff {cause : Abort} :
    r.outcome = .aborted cause ↔ r.abort = some cause := by
  unfold outcome
  cases r.abort with
  | some other =>
      simp
  | none =>
      cases r.machine.finished r.program <;> cases r.machine.result <;> simp [Outcome.ofResult]

theorem isOver_of_abort_eq_none (h : r.abort = none) :
    r.isOver = r.machine.finished r.program := by
  simp [isOver, h]

/-- A run that was not broken off has ended by its result, if it is over. -/
theorem outcome_of_abort_eq_none (h : r.abort = none) :
    r.outcome = if r.isOver then .ofResult r.machine.result else .escaped {} := by
  rw [outcome, isOver_of_abort_eq_none h, h]

/-- No error is left over from a run that is over. -/
theorem outcome_ne_escaped (h : r.isOver = true) (error : Unshowable) :
    r.outcome ≠ .escaped error := by
  intro houtcome
  cases habort : r.abort with
  | some cause =>
      rw [outcome_eq_aborted_iff.mpr habort] at houtcome
      cases houtcome
  | none =>
      rw [outcome_of_abort_eq_none habort, if_pos h] at houtcome
      cases hresult : r.machine.result <;> simp_all [Outcome.ofResult]

theorem abort_of_not_isOver (h : r.isOver = false) : r.abort = none := by
  simp only [isOver, Bool.or_eq_false_iff] at h
  cases habort : r.abort <;> simp_all

theorem not_finished_of_not_isOver (h : r.isOver = false) :
    r.machine.finished r.program = false := by
  simp only [isOver, Bool.or_eq_false_iff] at h
  exact h.2

theorem step_of_abort {cause : Abort} (h : r.abort = some cause) :
    r.step limit recording = (.refused (.aborted cause), r) := by
  simp only [step, h]

theorem step_of_finished (habort : r.abort = none) (h : r.machine.finished r.program = true) :
    r.step limit recording = (.refused .finished, r) := by
  simp only [step, habort, h, if_true]

/-- A run that is over refuses every step, and stays as it is. -/
theorem exists_refused_of_isOver (h : r.isOver = true) (limit : Option Int)
    (recording : Bool) :
    ∃ misuse, r.step limit recording = (.refused misuse, r) := by
  cases habort : r.abort with
  | some cause =>
      exact ⟨_, step_of_abort habort⟩
  | none =>
      have hfinished : r.machine.finished r.program = true := by
        simpa [isOver, habort] using h
      exact ⟨_, step_of_finished habort hfinished⟩

/-- A step of a run that is over leaves it as it is. -/
theorem step_eq_next (limit : Option Int) (recording : Bool) (r : Run) :
    (r.step limit recording).2 = r.next limit recording := by
  unfold next
  split
  · rename_i hover
    obtain ⟨misuse, hstep⟩ := exists_refused_of_isOver hover limit recording
    rw [hstep]
  · rfl

theorem next_of_isOver (h : r.isOver = true) : r.next limit recording = r := by
  simp [next, h]

/-- A limit is spent as soon as it is reached. -/
theorem spent?_eq_some_iff {most : Int} {cycles : Nat} :
    spent? limit cycles = some most ↔ limit = some most ∧ most ≤ cycles := by
  rw [spent?, Option.filter_eq_some_iff, decide_eq_true_eq]

/-- A step of a run that is not over depends on the line at hand and on the limit. -/
theorem step_of_not_isOver (h : r.isOver = false) (limit : Option Int) (recording : Bool) :
    r.step limit recording =
      match r.program.instructionAt? r.ready.pc with
      | none => (.ranOff, { r with machine := r.ready })
      | some i =>
          match spent? limit r.machine.cycles with
          | some most => exhausted most r.ready r
          | none => attempted recording i r.ready r := by
  unfold step
  rw [abort_of_not_isOver h]
  simp only [not_finished_of_not_isOver h, Bool.false_eq_true, if_false]
  rfl

/-- Without an instruction, the program counter is moved behind the last line. -/
theorem step_of_none (h : r.isOver = false)
    (hi : r.program.instructionAt? r.ready.pc = none) :
    r.step limit recording = (.ranOff, { r with machine := r.ready }) := by
  rw [step_of_not_isOver h, hi]

/-- A limit that is spent leaves no room for an instruction. -/
theorem step_of_spent {i : Instruction} {most : Int} (h : r.isOver = false)
    (hi : r.program.instructionAt? r.ready.pc = some i)
    (hspent : spent? limit r.machine.cycles = some most) :
    r.step limit recording = exhausted most r.ready r := by
  rw [step_of_not_isOver h, hi, hspent]

/-- A spent limit that can be shown breaks the run off. -/
theorem exhausted_of_isShowable {most : Int} (h : Numeral.isShowable most = true) (ready : Machine)
    (r : Run) :
    exhausted most ready r =
      (.aborted (.exhausted most),
        { r with machine := ready, abort := some (.exhausted most) }) := by
  rw [exhausted, Abort.ofLimit_of_isShowable h]

/-- A spent limit that cannot be shown makes an error that the run takes no note of. -/
theorem exhausted_of_not_isShowable {most : Int} (h : Numeral.isShowable most = false)
    (ready : Machine) (r : Run) :
    exhausted most ready r = (.escaped {}, { r with machine := ready }) := by
  rw [exhausted, Abort.ofLimit_of_not_isShowable h]

/-- An instruction is attempted as long as the limit is not spent. -/
theorem step_of_attempt {i : Instruction} (h : r.isOver = false)
    (hi : r.program.instructionAt? r.ready.pc = some i)
    (hspent : spent? limit r.machine.cycles = none) :
    r.step limit recording = attempted recording i r.ready r := by
  rw [step_of_not_isOver h, hi, hspent]

/-- What an attempt reports, and the run that it leaves. -/
theorem attempted_eq (recording : Bool) (i : Instruction) (r : Run) :
    attempted recording i r.ready r =
      ((failureOf i r.ready (i.execute r.program r.ready)).elim
          (.executed (entryOf recording i r.ready (i.execute r.program r.ready)))
          fun failure => .aborted (.failed failure),
        { r with
          machine := (i.execute r.program r.ready).machine
          history := recorded recording i r
          abort := (failureOf i r.ready (i.execute r.program r.ready)).map .failed }) := by
  unfold attempted
  cases hfailure : (entryOf recording i r.ready (i.execute r.program r.ready)).failure <;>
    simp_all [recorded, entryOf]

theorem next_of_none (h : r.isOver = false)
    (hi : r.program.instructionAt? r.ready.pc = none) :
    r.next limit recording = { r with machine := r.ready } := by
  rw [← step_eq_next, step_of_none h hi]

theorem next_of_spent {i : Instruction} {most : Int} (h : r.isOver = false)
    (hi : r.program.instructionAt? r.ready.pc = some i)
    (hspent : spent? limit r.machine.cycles = some most) :
    r.next limit recording = { r with machine := r.ready, abort := Abort.ofSpent most } := by
  rw [← step_eq_next, step_of_spent h hi hspent]
  cases hshort : Numeral.isShowable most with
  | true =>
      rw [exhausted_of_isShowable hshort, Abort.ofSpent_of_isShowable hshort]
  | false =>
      rw [exhausted_of_not_isShowable hshort, Abort.ofSpent_of_not_isShowable hshort,
        ← abort_of_not_isOver h]

theorem next_of_attempt {i : Instruction} (h : r.isOver = false)
    (hi : r.program.instructionAt? r.ready.pc = some i)
    (hspent : spent? limit r.machine.cycles = none) :
    r.next limit recording =
      { r with
        machine := (i.execute r.program r.ready).machine
        history := recorded recording i r
        abort := (failureOf i r.ready (i.execute r.program r.ready)).map .failed } := by
  rw [← step_eq_next, step_of_attempt h hi hspent, attempted_eq]

/-- An instruction that succeeds leaves a run that is not broken off. -/
theorem next_of_execute {i : Instruction} {after : Machine} (h : r.isOver = false)
    (hi : r.program.instructionAt? r.ready.pc = some i)
    (hspent : spent? limit r.machine.cycles = none)
    (hexecute : i.execute r.program r.ready = { machine := after }) :
    r.next limit recording =
      { r with machine := after, history := recorded recording i r } := by
  have hfailure : failureOf i r.ready { machine := after } = none := by
    rfl
  rw [next_of_attempt h hi hspent, hexecute, hfailure, Option.map_none, ← abort_of_not_isOver h]

/-- **A run that is not over moves.** -/
theorem moves_next (h : r.isOver = false) (limit : Option Int) (recording : Bool) :
    r.Moves limit recording (r.next limit recording) := by
  cases hi : r.program.instructionAt? r.ready.pc with
  | none =>
      rw [next_of_none h hi]
      exact .ranOff hi
  | some i =>
      cases hspent : spent? limit r.machine.cycles with
      | some most =>
          rw [next_of_spent h hi hspent]
          exact .exhausted hi hspent
      | none =>
          rcases i.execute_cases r.program r.ready with ⟨after, hperforms, heq⟩ | hfails
          · rw [next_of_execute h hi hspent heq]
            exact .executed hi hspent hperforms
          · obtain ⟨fault, hfault⟩ := Option.ne_none_iff_exists'.mp hfails.fault_ne_none
            rw [next_of_attempt h hi hspent, failureOf, hfault]
            exact .failed hi hspent hfails hfault

theorem proceed_eq_iterate (limit : Option Int) (recording : Bool) (n : Nat) (r : Run) :
    r.proceed limit recording n = (next limit recording)^[n] r := by
  induction n generalizing r with
  | zero =>
      rfl
  | succ n ih =>
      rw [Function.iterate_succ_apply]
      cases hover : r.isOver with
      | true =>
          rw [proceed_of_isOver hover, next_of_isOver hover, ← ih, proceed_of_isOver hover]
      | false =>
          simp [proceed, hover, ih, next]

theorem proceed_succ (limit : Option Int) (recording : Bool) (n : Nat) (r : Run) :
    r.proceed limit recording (n + 1) = (r.proceed limit recording n).next limit recording := by
  rw [proceed_eq_iterate, proceed_eq_iterate, Function.iterate_succ_apply']

/-- More steps keep a run that one step keeps. -/
theorem proceed_of_next_eq {n k : Nat}
    (h : (r.proceed limit recording n).next limit recording = r.proceed limit recording n)
    (hle : n ≤ k) : r.proceed limit recording k = r.proceed limit recording n := by
  induction hle with
  | refl =>
      rfl
  | step _ ih =>
      rw [proceed_succ, ih, h]

/-- More steps keep a run that is over. -/
theorem proceed_of_le {n k : Nat} (h : (r.proceed limit recording n).isOver = true)
    (hle : n ≤ k) : r.proceed limit recording k = r.proceed limit recording n :=
  proceed_of_next_eq (next_of_isOver h) hle

end Run
end RegisterMachine
