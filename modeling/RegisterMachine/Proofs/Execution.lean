import RegisterMachine.Proofs.Budget

/-!
# The instructions that a run executes

A run takes one step after the other, and its limit and recording may be changed
between two steps.  A step that succeeds executes one instruction on the machine
that stands at its line; every other step executes none.

**Contents.**
* `Schedule`: the settings that are in force at each step.
* `Schedule.upTo`: settings that do not change any more from a step on.
* `Program.course`: the run of a program after a number of steps.
* `Execution`, `Program.executed?`, `Program.executions`: the executed instructions.
* `Run.Stalls`: what a step does that executes no instruction.

**Results.**
* `Run.step_cases`: a step executes an instruction or stalls.
* `Program.LaidOut.ends_iff_course`: a whole run is a course under constant settings.
* `Session.Reachable.exists_course`: every run of a session is a course.
-/

namespace RegisterMachine

/-- The limit and the recording that are in force at each step of a run. -/
structure Schedule where
  limit : Nat → Option Int
  recording : Nat → Bool

/-- The schedule of settings that are never changed. -/
def Schedule.constant (limit : Option Int) (recording : Bool) : Schedule where
  limit _ := limit
  recording _ := recording

/-- The settings of a schedule for a number of steps, and others ever after. -/
def Schedule.upTo (s : Schedule) (n : Nat) (limit : Option Int) (recording : Bool) :
    Schedule where
  limit k := if k < n then s.limit k else limit
  recording k := if k < n then s.recording k else recording

/-- An instruction and the machine that it was executed on. -/
structure Execution where
  machine : Machine
  instruction : Instruction
deriving DecidableEq, Repr

namespace Run

variable {r : Run} {limit : Option Int} {recording : Bool}

/-- The instruction that the next step of a run executes, unless that step fails or has
nothing to execute. -/
def execution? (limit : Option Int) (recording : Bool) (r : Run) : Option Execution :=
  match (r.step limit recording).1 with
  | .executed entry => some { machine := r.ready, instruction := entry.instruction }
  | _ => none

/-- What a step leaves of a run if it executes no instruction. -/
inductive Stalls (r : Run) : Run → Prop
  | ended (hover : r.isOver = true) : Stalls r r
  | ranOff (hover : r.isOver = false) (hi : r.program.instructionAt? r.ready.pc = none) :
      Stalls r { r with machine := r.ready }
  | exhausted {i : Instruction} {most : Int} (hover : r.isOver = false)
      (hi : r.program.instructionAt? r.ready.pc = some i) :
      Stalls r { r with machine := r.ready, abort := Abort.ofSpent most }
  | failed {i : Instruction} {fault : Fault} {history : List Entry} (hover : r.isOver = false)
      (hi : r.program.instructionAt? r.ready.pc = some i)
      (hfails : i.action.Fails r.ready (i.execute r.program r.ready))
      (hfault : (i.execute r.program r.ready).fault = some fault) :
      Stalls r
        { r with
          machine := (i.execute r.program r.ready).machine
          history := history
          abort := some (.failed
            { fault, line := some r.ready.pc, source := some i.text,
              output := (i.execute r.program r.ready).machine.output }) }

theorem execution?_of_isOver (hover : r.isOver = true) :
    r.execution? limit recording = none := by
  obtain ⟨misuse, hstep⟩ := exists_refused_of_isOver hover limit recording
  rw [execution?, hstep]

theorem execution?_of_none (hover : r.isOver = false)
    (hi : r.program.instructionAt? r.ready.pc = none) :
    r.execution? limit recording = none := by
  rw [execution?, step_of_none hover hi]

theorem execution?_of_spent {i : Instruction} {most : Int} (hover : r.isOver = false)
    (hi : r.program.instructionAt? r.ready.pc = some i)
    (hspent : spent? limit r.machine.cycles = some most) :
    r.execution? limit recording = none := by
  rw [execution?, step_of_spent hover hi hspent, exhausted]
  cases Abort.ofLimit most <;> rfl

/-- An attempt counts as executed exactly if it has no fault. -/
theorem execution?_of_attempt {i : Instruction} (hover : r.isOver = false)
    (hi : r.program.instructionAt? r.ready.pc = some i)
    (hspent : spent? limit r.machine.cycles = none) :
    r.execution? limit recording =
      if (i.execute r.program r.ready).fault = none then
        some { machine := r.ready, instruction := i }
      else none := by
  rw [execution?, step_of_attempt hover hi hspent, attempted_eq]
  cases hfault : (i.execute r.program r.ready).fault <;> simp [failureOf, entryOf, hfault]

/-- **A step executes the instruction at hand, or it stalls.** -/
theorem step_cases (limit : Option Int) (recording : Bool) (r : Run) :
    (∃ i after,
      r.execution? limit recording = some { machine := r.ready, instruction := i } ∧
      r.isOver = false ∧ r.program.instructionAt? r.ready.pc = some i ∧
      i.action.Performs r.program r.ready after ∧
      r.next limit recording =
        { r with machine := after.tick, history := recorded recording i r }) ∨
    (r.execution? limit recording = none ∧ r.Stalls (r.next limit recording)) := by
  cases hover : r.isOver with
  | true =>
      rw [next_of_isOver hover]
      exact .inr ⟨execution?_of_isOver hover, .ended hover⟩
  | false =>
      cases hi : r.program.instructionAt? r.ready.pc with
      | none =>
          rw [next_of_none hover hi]
          exact .inr ⟨execution?_of_none hover hi, .ranOff hover hi⟩
      | some i =>
          cases hspent : spent? limit r.machine.cycles with
          | some most =>
              rw [next_of_spent hover hi hspent]
              exact .inr ⟨execution?_of_spent hover hi hspent, .exhausted hover hi⟩
          | none =>
              rw [execution?_of_attempt hover hi hspent]
              rcases i.execute_cases r.program r.ready with ⟨after, hperforms, heq⟩ | hfails
              · refine .inl ⟨i, after, by rw [heq]; rfl, rfl, rfl, hperforms, ?_⟩
                exact next_of_execute hover hi hspent heq
              · obtain ⟨fault, hfault⟩ := Option.ne_none_iff_exists'.mp hfails.fault_ne_none
                refine .inr ⟨by simp [hfault], ?_⟩
                rw [next_of_attempt hover hi hspent, failureOf, hfault]
                exact .failed hover hi hfails hfault

end Run

namespace Program

variable {p : Program} {s : Schedule} {n : Nat}

/-- The run of a program after a number of steps. -/
def course (p : Program) (s : Schedule) : Nat → Run
  | 0 => .start p
  | n + 1 => ((p.course s n).step (s.limit n) (s.recording n)).2

/-- The instruction that is executed by the step behind a number of steps. -/
def executed? (p : Program) (s : Schedule) (n : Nat) : Option Execution :=
  (p.course s n).execution? (s.limit n) (s.recording n)

/-- The instructions that are executed in a number of steps, in their order. -/
def executions (p : Program) (s : Schedule) (n : Nat) : List Execution :=
  (List.range n).filterMap (p.executed? s)

theorem course_succ (p : Program) (s : Schedule) (n : Nat) :
    p.course s (n + 1) = (p.course s n).next (s.limit n) (s.recording n) :=
  Run.step_eq_next _ _ _

theorem executions_succ (p : Program) (s : Schedule) (n : Nat) :
    p.executions s (n + 1) = p.executions s n ++ (p.executed? s n).toList := by
  rw [executions, List.range_succ, List.filterMap_append]
  cases h : p.executed? s n <;> simp [executions, h]

theorem program_course (p : Program) (s : Schedule) (n : Nat) : (p.course s n).program = p := by
  induction n with
  | zero =>
      rfl
  | succ n ih =>
      rw [course_succ]
      rcases Run.step_cases (s.limit n) (s.recording n) (p.course s n) with
        ⟨i, after, -, -, -, -, hnext⟩ | ⟨-, hstalls⟩
      · rw [hnext]
        exact ih
      · generalize (p.course s n).next (s.limit n) (s.recording n) = r at hstalls
        cases hstalls <;> exact ih

theorem proceed_eq_course (p : Program) (limit : Option Int) (recording : Bool) (n : Nat) :
    (Run.start p).proceed limit recording n = p.course (.constant limit recording) n := by
  induction n with
  | zero =>
      rfl
  | succ n ih =>
      rw [Run.proceed_succ, course_succ, ih]
      rfl

theorem LaidOut.sound_course (h : p.LaidOut) (s : Schedule) (n : Nat) : (p.course s n).Sound := by
  induction n with
  | zero =>
      exact .initial h
  | succ n ih =>
      rw [course_succ]
      exact ih.next (s.limit n) (s.recording n)

/-- **A whole run is a course** under settings that do not change. -/
theorem LaidOut.ends_iff_course (h : p.LaidOut) {limit : Option Int} {recording : Bool}
    {r : Run} :
    p.Ends limit recording r ↔
      ∃ n, p.course (.constant limit recording) n = r ∧ r.next limit recording = r := by
  simp only [h.ends_iff, proceed_eq_course]

theorem LaidOut.exists_course (h : p.LaidOut) {limit : Option Int} {recording : Bool} {r : Run}
    (hends : p.Ends limit recording r) :
    ∃ n, p.course (.constant limit recording) n = r ∧ r.next limit recording = r :=
  h.ends_iff_course.mp hends

/-- What comes later in a schedule does not count. -/
theorem course_congr {s s' : Schedule}
    (h : ∀ k < n, s.limit k = s'.limit k ∧ s.recording k = s'.recording k) :
    p.course s n = p.course s' n := by
  induction n with
  | zero =>
      rfl
  | succ n ih =>
      obtain ⟨hlimit, hrecording⟩ := h n (Nat.lt_succ_self n)
      rw [course_succ, course_succ, hlimit, hrecording,
        ih fun k hk => h k (Nat.lt_succ_of_lt hk)]

/-- A course goes on under settings of its own. -/
theorem course_upTo_succ (p : Program) (s : Schedule) (n : Nat) (limit : Option Int)
    (recording : Bool) :
    p.course (s.upTo n limit recording) (n + 1) = (p.course s n).next limit recording := by
  have hsame : p.course (s.upTo n limit recording) n = p.course s n := by
    apply course_congr
    intro k hk
    simp [Schedule.upTo, hk]
  rw [course_succ, hsame]
  simp [Schedule.upTo]

theorem exists_course_of_run? {limit : Option Int} {recording : Bool} {fuel : Nat} {r : Run}
    (h : p.run? limit recording fuel = some r) :
    ∃ n, p.course (.constant limit recording) n = r := by
  unfold run? at h
  cases limit with
  | some most =>
      cases h
      exact ⟨most.toNat + 1, (proceed_eq_course p (some most) recording _).symm⟩
  | none =>
      simp only [Option.ite_none_right_eq_some, Option.some.injEq] at h
      rw [← h.2]
      exact ⟨fuel, (proceed_eq_course p none recording fuel).symm⟩

end Program

/-- **Every run of a session is a course** of a program that was read from a source. -/
theorem Session.Reachable.exists_course {s : Session} {r : Run} (h : s.Reachable)
    (hr : s.current = some r) :
    ∃ source p schedule n, Program.ofSource source = .ok p ∧ p.course schedule n = r := by
  induction h generalizing r with
  | fresh limit recording =>
      cases hr
  | @next s after _ hafter ih =>
      cases hafter with
      | load hload =>
          obtain ⟨p, hp, rfl⟩ := Result.map_eq_ok.mp hload
          cases hr
          exact ⟨_, p, .constant none false, 0, hp, rfl⟩
      | install hp =>
          cases hr
          exact ⟨_, _, .constant none false, 0, hp, rfl⟩
      | reset hreset =>
          obtain ⟨before, hbefore, rfl⟩ := Result.map_eq_ok.mp hreset
          obtain ⟨source, p, schedule, n, hp, rfl⟩ := ih (current_of_loaded hbefore)
          cases hr
          refine ⟨source, p, .constant none false, 0, hp, ?_⟩
          rw [p.program_course]
          rfl
      | step =>
          cases hcurrent : s.current with
          | none =>
              simp [step, hcurrent] at hr
          | some before =>
              obtain ⟨source, p, schedule, n, hp, rfl⟩ := ih hcurrent
              rw [step_of_current hcurrent] at hr
              cases hr
              exact ⟨source, p, _, n + 1, hp, p.course_upTo_succ schedule n _ _⟩
      | run hrun =>
          obtain ⟨before, hbefore, hafter⟩ := Result.map_eq_ok.mp hrun
          obtain ⟨ended, hended, rfl⟩ := Option.map_eq_some_iff.mp hafter
          obtain ⟨source, p, schedule, n, hp, rfl⟩ := ih (current_of_loaded hbefore)
          cases hr
          rw [p.program_course] at hended
          obtain ⟨k, hk⟩ := Program.exists_course_of_run? hended
          exact ⟨source, p, _, k, hp, hk⟩
      | _ =>
          exact ih hr

end RegisterMachine
