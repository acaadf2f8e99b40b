import RegisterMachine.Proofs.Reachable

/-!
# What recording changes

Whether states are recorded can be changed at any time.  It decides what is kept in the
trace and in the entries that steps return, and nothing else: with all of that left out,
a session answers every request alike.

**Contents.**
* `plain`: an entry without its states, a run without its trace, a session without the
  setting as well, and what is left of an answer.
* `Request`, `Answer`, `Session.handle`, `Session.conduct`: a session in use.

**Results.**
* `Run.plain_step`, `Run.plain_proceed`: recording changes no step and no run.
* `Session.plain_conduct`: it changes no answer, whenever it is switched on or off.
-/

namespace RegisterMachine

/-- An entry without the states that are recorded in it. -/
def Entry.plain (e : Entry) : Entry :=
  { e with states := none }

/-- What a step did, without recorded states. -/
def Progress.plain : Progress → Progress
  | .executed entry => .executed entry.plain
  | progress => progress

namespace Run

variable {r : Run} {limit : Option Int}

/-- A run without its trace. -/
def plain (r : Run) : Run :=
  { r with history := [] }

@[simp] theorem plain_start (p : Program) : (start p).plain = start p := by
  rfl

@[simp] theorem isOver_plain (r : Run) : r.plain.isOver = r.isOver := by
  rfl

@[simp] theorem outcome_plain (r : Run) : r.plain.outcome = r.outcome := by
  rfl

theorem plain_attempted (recording : Bool) (i : Instruction) (ready : Machine) (r : Run) :
    (attempted recording i ready r).1.plain = (attempted false i ready r.plain).1 ∧
      (attempted recording i ready r).2.plain = (attempted false i ready r.plain).2 := by
  have hfailure : (entryOf recording i ready (i.execute r.program ready)).failure =
      failureOf i ready (i.execute r.program ready) := by
    rfl
  have hfailure' : (entryOf false i ready (i.execute r.plain.program ready)).failure =
      failureOf i ready (i.execute r.program ready) := by
    rfl
  simp only [attempted, hfailure, hfailure']
  cases failureOf i ready (i.execute r.program ready) <;> exact ⟨rfl, rfl⟩

theorem plain_exhausted (most : Int) (ready : Machine) (r : Run) :
    (exhausted most ready r).1.plain = (exhausted most ready r.plain).1 ∧
      (exhausted most ready r).2.plain = (exhausted most ready r.plain).2 := by
  unfold exhausted
  cases Abort.ofLimit most <;> exact ⟨rfl, rfl⟩

/-- **Recording changes nothing in a step** but the trace and the recorded states. -/
theorem plain_step (limit : Option Int) (recording : Bool) (r : Run) :
    (r.step limit recording).1.plain = (r.plain.step limit false).1 ∧
      (r.step limit recording).2.plain = (r.plain.step limit false).2 := by
  have hprogram : r.plain.program = r.program := rfl
  have hmachine : r.plain.machine = r.machine := rfl
  have habort : r.plain.abort = r.abort := rfl
  simp only [step, hprogram, hmachine, habort]
  cases r.abort with
  | some cause =>
      exact ⟨rfl, rfl⟩
  | none =>
      cases r.machine.finished r.program with
      | true =>
          exact ⟨rfl, rfl⟩
      | false =>
          simp only [Bool.false_eq_true, if_false]
          cases r.program.instructionAt? (r.machine.settle r.program).pc with
          | none =>
              exact ⟨rfl, rfl⟩
          | some i =>
              cases spent? limit (r.machine.settle r.program).cycles with
              | some most =>
                  exact plain_exhausted most _ r
              | none =>
                  exact plain_attempted recording i _ r

theorem plain_proceed (limit : Option Int) (recording : Bool) (n : Nat) (r : Run) :
    (r.proceed limit recording n).plain = r.plain.proceed limit false n := by
  induction n generalizing r with
  | zero =>
      rfl
  | succ n ih =>
      rw [proceed, proceed, isOver_plain]
      split
      · rfl
      · rw [ih, (plain_step limit recording r).2]

end Run

/-- Recording changes no run under a limit. -/
theorem Program.plain_runWithin (p : Program) (most : Int) (recording : Bool) :
    (p.runWithin most recording).plain = p.runWithin most false := by
  rw [runWithin, Run.plain_proceed, Run.plain_start, runWithin]

/-- Recording changes no whole run. -/
theorem Program.plain_run? (p : Program) (limit : Option Int) (recording : Bool) (fuel : Nat) :
    (p.run? limit recording fuel).map Run.plain = p.run? limit false fuel := by
  cases limit with
  | some most =>
      simp only [run?, Option.map_some, plain_runWithin]
  | none =>
      have hplain := Run.plain_proceed none recording fuel (Run.start p)
      have hover : ((Run.start p).proceed none recording fuel).isOver =
          ((Run.start p).proceed none false fuel).isOver := by
        rw [← Run.isOver_plain, hplain, Run.plain_start]
      simp only [run?, hover]
      split
      · rw [Option.map_some, hplain, Run.plain_start]
      · rfl

/-- What can be asked of a session; a run is given as much fuel as it may take. -/
inductive Request
  | load (source : Text)
  | install (p : Program)
  | reset
  | step
  | run (override : Option Int) (fuel : Nat)
  | setLimit (limit : Option Int)
  | setRecording (recording : Bool)
deriving DecidableEq, Repr

/-- Whether a request switches recording on or off. -/
def Request.switches : Request → Bool
  | .setRecording _ => true
  | _ => false

/-- What a session answers: a program was taken up, or why it was not, what a step did, or
how a run ended, unless it is still going on. -/
inductive Answer
  | ready
  | unreadable (error : LoadError)
  | misused (misuse : Misuse)
  | stepped (progress : Progress)
  | ended (outcome : Option Outcome)
deriving DecidableEq, Repr

/-- An answer without recorded states. -/
def Answer.plain : Answer → Answer
  | .stepped progress => .stepped progress.plain
  | answer => answer

namespace Session

/-- A session that does not record and has no trace. -/
def plain (s : Session) : Session :=
  { s with recording := false, current := s.current.map Run.plain }

/-- How the current run ended. -/
def outcome (s : Session) : Option Outcome :=
  s.current.map Run.outcome

/-- What a session answers to a request, and what becomes of it.  A new setting has no
answer. -/
def handle (s : Session) : Request → Option Answer × Session
  | .load source =>
      match s.load source with
      | .ok after => (some .ready, after)
      | .error e => (some (.unreadable e), s)
  | .install p => (some .ready, s.install p)
  | .reset =>
      match s.reset with
      | .ok after => (some .ready, after)
      | .error misuse => (some (.misused misuse), s)
  | .step => (some (.stepped s.step.1), s.step.2)
  | .run override fuel =>
      match s.run override fuel with
      | .ok (some after) => (some (.ended after.outcome), after)
      | .ok none => (some (.ended none), s)
      | .error misuse => (some (.misused misuse), s)
  | .setLimit limit => (none, { s with limit })
  | .setRecording recording => (none, { s with recording })

/-- The answers to requests, one after the other, and what becomes of the session. -/
def conduct (s : Session) : List Request → List Answer × Session
  | [] => ([], s)
  | request :: requests =>
      let (answer, after) := s.handle request
      let (answers, last) := after.conduct requests
      (answer.toList ++ answers, last)

@[simp] theorem outcome_plain (s : Session) : s.plain.outcome = s.outcome := by
  simp [outcome, plain, Function.comp_def]

theorem plain_load (s : Session) (source : Text) :
    (s.load source).map plain = s.plain.load source := by
  unfold load
  cases Program.ofSource source <;> rfl

theorem plain_reset (s : Session) : s.reset.map plain = s.plain.reset := by
  unfold reset loaded
  cases hcurrent : s.current with
  | none =>
      simp [plain, hcurrent, Except.map]
  | some r =>
      simp [plain, hcurrent, Except.map, install]
      rfl

theorem plain_step (s : Session) :
    s.step.1.plain = s.plain.step.1 ∧ s.step.2.plain = s.plain.step.2 := by
  unfold step
  cases hcurrent : s.current with
  | none =>
      simp [plain, hcurrent, Progress.plain]
  | some r =>
      obtain ⟨hprogress, hrun⟩ := r.plain_step s.limit s.recording
      simp [plain, hcurrent, hprogress, hrun]

theorem plain_run (s : Session) (override : Option Int) (fuel : Nat) :
    (s.run override fuel).map (Option.map plain) = s.plain.run override fuel := by
  unfold run loaded
  cases hcurrent : s.current with
  | none =>
      simp [plain, hcurrent, Except.map]
  | some r =>
      have hrun := r.program.plain_run? (override.or s.limit) s.recording fuel
      simp [plain, hcurrent, Except.map, Run.plain, ← hrun, Function.comp_def]

/-- **A request is answered alike** by a session that does not record. -/
theorem plain_handle (s : Session) {request : Request} (h : request.switches = false) :
    (s.handle request).1.map Answer.plain = (s.plain.handle request).1 ∧
      (s.handle request).2.plain = (s.plain.handle request).2 := by
  cases request with
  | load source =>
      have hload := s.plain_load source
      simp only [handle, ← hload]
      cases s.load source <;> exact ⟨rfl, rfl⟩
  | install p =>
      exact ⟨rfl, rfl⟩
  | reset =>
      have hreset := s.plain_reset
      simp only [handle, ← hreset]
      cases s.reset <;> exact ⟨rfl, rfl⟩
  | step =>
      obtain ⟨hprogress, hafter⟩ := s.plain_step
      simp only [handle, Option.map_some, Answer.plain, hprogress, hafter, and_self]
  | run override fuel =>
      have hrun := s.plain_run override fuel
      simp only [handle, ← hrun]
      cases s.run override fuel with
      | error misuse =>
          exact ⟨rfl, rfl⟩
      | ok after =>
          cases after with
          | none =>
              exact ⟨rfl, rfl⟩
          | some after =>
              simp only [Except.map, Option.map_some, outcome_plain, and_true]
              rfl
  | setLimit limit =>
      exact ⟨rfl, rfl⟩
  | setRecording recording =>
      cases h

/-- Switching has no answer and changes nothing but the recording. -/
theorem plain_handle_of_switches (s : Session) {request : Request}
    (h : request.switches = true) :
    (s.handle request).1 = none ∧ (s.handle request).2.plain = s.plain := by
  cases request with
  | setRecording recording => exact ⟨rfl, rfl⟩
  | _ => cases h

/-- **Requests are answered alike** by a session that never records. -/
theorem plain_conduct (s : Session) (requests : List Request) :
    (s.conduct requests).1.map Answer.plain =
        (s.plain.conduct (requests.filter fun request => !request.switches)).1 ∧
      (s.conduct requests).2.plain =
        (s.plain.conduct (requests.filter fun request => !request.switches)).2 := by
  induction requests generalizing s with
  | nil =>
      exact ⟨rfl, rfl⟩
  | cons request requests ih =>
      obtain ⟨hanswers, hlast⟩ := ih (s.handle request).2
      cases hswitches : request.switches with
      | true =>
          obtain ⟨hanswer, hafter⟩ := s.plain_handle_of_switches hswitches
          rw [hafter] at hanswers hlast
          simp only [conduct, hanswer, Option.toList_none, List.nil_append, hswitches,
            Bool.not_true, Bool.false_eq_true, not_false_eq_true, List.filter_cons_of_neg]
          exact ⟨hanswers, hlast⟩
      | false =>
          obtain ⟨hanswer, hafter⟩ := s.plain_handle hswitches
          rw [hafter] at hanswers hlast
          simp only [conduct, hswitches, Bool.not_false, List.filter_cons_of_pos,
            List.map_append, hanswers, ← hanswer, Option.toList_map]
          exact ⟨trivial, hlast⟩

end Session
end RegisterMachine
