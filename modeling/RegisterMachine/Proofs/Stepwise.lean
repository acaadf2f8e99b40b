import RegisterMachine.Proofs.Budget
import RegisterMachine.Proofs.Recording

/-!
# Whole runs step by step

A session can run its program in one go, or step through it until the machine has
finished or a step raises an error.  Both come to the same end, and what was done with
the session before does not matter.

**Contents.**
* `Session.stepAll`: stepping through a run.

**Results.**
* `Run.Sound.step_fst_cases`: a step that breaks a run off reports it, and no other step does.
* `Session.exists_stepAll_iff`: stepping through a run ends where the run does.
* `Session.Reachable.run_stepwise`: whole runs, stepping and recording agree.
-/

namespace RegisterMachine

namespace Run

variable {r : Run}

theorem isOver_of_abort_ne_none (h : r.abort ≠ none) : r.isOver = true :=
  isOver_iff.mpr (.inl (Option.isSome_iff_ne_none.mpr h))

/-- A run that is not over begins with one step. -/
theorem proceed_of_not_isOver (hover : r.isOver = false) (limit : Option Int)
    (recording : Bool) (n : Nat) :
    r.proceed limit recording (n + 1) =
      (r.next limit recording).proceed limit recording n := by
  simp [proceed, hover, next]

/-- **A step that breaks a run off reports it**, and no other step does.  An error that escapes
the run leaves it stuck. -/
theorem Sound.step_fst_cases (h : r.Sound) (hover : r.isOver = false) (limit : Option Int)
    (recording : Bool) :
    (∃ cause, (r.step limit recording).1 = .aborted cause ∧
      (r.next limit recording).abort = some cause) ∨
    ((r.step limit recording).1 = .escaped {} ∧ (r.next limit recording).Stuck limit) ∨
    (((∃ entry, (r.step limit recording).1 = .executed entry) ∨
      (r.step limit recording).1 = .ranOff) ∧
      (r.next limit recording).abort = none) := by
  have habort := abort_of_not_isOver hover
  cases hi : r.program.instructionAt? r.ready.pc with
  | none =>
      rw [← step_eq_next, step_of_none hover hi]
      exact .inr (.inr ⟨.inr rfl, habort⟩)
  | some i =>
      cases hspent : spent? limit r.machine.cycles with
      | some most =>
          cases hshort : Numeral.isShowable most with
          | true =>
              rw [← step_eq_next, step_of_spent hover hi hspent, exhausted_of_isShowable hshort]
              exact .inl ⟨_, rfl, rfl⟩
          | false =>
              have hstuck := h.stuck_of_spent hover hi hspent hshort recording
              rw [step_of_spent hover hi hspent, exhausted_of_not_isShowable hshort]
              exact .inr (.inl ⟨rfl, hstuck⟩)
      | none =>
          rw [← step_eq_next, step_of_attempt hover hi hspent, attempted_eq]
          cases failureOf i r.ready (i.execute r.program r.ready) with
          | none => exact .inr (.inr ⟨.inl ⟨_, rfl⟩, rfl⟩)
          | some failure => exact .inl ⟨_, rfl, rfl⟩

end Run

namespace Session

variable {s after : Session} {r : Run}

/-- Whether the machine of a session has finished. -/
def finished (s : Session) : Bool :=
  s.current.any fun r => r.machine.finished r.program

/-- Steps of a session until its machine has finished or a step raises an error, with the
end that was found; `none` if the given number of rounds is not enough. -/
def stepAll : Nat → Session → Option (Except Misuse Outcome × Session)
  | 0, _ => none
  | n + 1, s =>
      if s.finished then some (.ok (.ofResult s.result), s)
      else
        match s.step with
        | (.refused misuse, after) => some (.error misuse, after)
        | (.aborted cause, after) => some (.ok (.aborted cause), after)
        | (.escaped error, after) => some (.ok (.escaped error), after)
        | (_, after) => after.stepAll n

theorem stepAll_of_isOver (s : Session) (habort : r.abort = none) (hover : r.isOver = true)
    (n : Nat) :
    stepAll (n + 1) { s with current := some r } =
      some (.ok r.outcome, { s with current := some r }) := by
  rw [Run.outcome_of_abort_eq_none habort, if_pos hover]
  rw [Run.isOver_of_abort_eq_none habort] at hover
  simp [stepAll, finished, hover, result]

/-- A round takes the next step, and is the last one if that step raises an error. -/
theorem stepAll_of_not_isOver (s : Session) (hsound : r.Sound) (hover : r.isOver = false)
    (n : Nat) :
    ((r.next s.limit s.recording).next s.limit s.recording = r.next s.limit s.recording ∧
      stepAll (n + 1) { s with current := some r } =
        some (.ok (r.next s.limit s.recording).outcome,
          { s with current := some (r.next s.limit s.recording) })) ∨
    ((r.next s.limit s.recording).abort = none ∧
      stepAll (n + 1) { s with current := some r } =
        stepAll n { s with current := some (r.next s.limit s.recording) }) := by
  have hfinished := Run.not_finished_of_not_isOver hover
  have hstep : step { s with current := some r } =
      ((r.step s.limit s.recording).1,
        { s with current := some (r.next s.limit s.recording) }) := by
    rw [← Run.step_eq_next]
    rfl
  simp only [stepAll, finished, Option.any_some, hfinished, Bool.false_eq_true, if_false, hstep]
  rcases hsound.step_fst_cases hover s.limit s.recording with
    ⟨cause, hcause, habort⟩ | ⟨hescaped, hstuck⟩ | ⟨⟨entry, hentry⟩ | hranOff, habort⟩
  · rw [hcause, Run.outcome_eq_aborted_iff.mpr habort]
    refine .inl ⟨Run.next_of_isOver (Run.isOver_of_abort_ne_none ?_), rfl⟩
    simp [habort]
  · rw [hescaped, hstuck.outcome_eq]
    exact .inl ⟨hstuck.next_eq s.recording, rfl⟩
  · rw [hentry]
    exact .inr ⟨habort, rfl⟩
  · rw [hranOff]
    exact .inr ⟨habort, rfl⟩

/-- A run that is at rest is the end of stepping. -/
theorem stepAll_of_next_eq (s : Session) (hsound : r.Sound) (habort : r.abort = none)
    (hrest : r.next s.limit s.recording = r) (n : Nat) :
    stepAll (n + 1) { s with current := some r } =
      some (.ok r.outcome, { s with current := some r }) := by
  rcases hsound.next_eq_self_iff.mp hrest with hover | hstuck
  · exact stepAll_of_isOver s habort hover n
  · have hfinished := Run.not_finished_of_not_isOver hstuck.running
    rw [hstuck.outcome_eq]
    simp [stepAll, finished, hfinished, step, hstuck.step_eq s.recording]

theorem exists_proceed_of_stepAll {result : Except Misuse Outcome} {n : Nat}
    (hsound : r.Sound) (habort : r.abort = none)
    (h : stepAll n { s with current := some r } = some (result, after)) :
    ∃ k ended, r.proceed s.limit s.recording k = ended ∧
      ended.next s.limit s.recording = ended ∧ result = .ok ended.outcome ∧
      after = { s with current := some ended } := by
  induction n generalizing r with
  | zero =>
      cases h
  | succ n ih =>
      cases hover : r.isOver with
      | true =>
          rw [stepAll_of_isOver s habort hover] at h
          cases h
          exact ⟨0, r, rfl, Run.next_of_isOver hover, rfl, rfl⟩
      | false =>
          have hproceed := Run.proceed_of_not_isOver hover s.limit s.recording
          rcases stepAll_of_not_isOver s hsound hover n with ⟨hrest, hlast⟩ | ⟨hnext, hround⟩
          · rw [hlast] at h
            cases h
            exact ⟨1, _, hproceed 0, hrest, rfl, rfl⟩
          · rw [hround] at h
            obtain ⟨k, ended, hk, hended⟩ := ih (hsound.next _ _) hnext h
            exact ⟨k + 1, ended, by rw [hproceed, hk], hended⟩

theorem stepAll_proceed {ended : Run} {k : Nat} (hsound : r.Sound) (habort : r.abort = none)
    (hended : r.proceed s.limit s.recording k = ended)
    (hrest : ended.next s.limit s.recording = ended) :
    stepAll (k + 1) { s with current := some r } =
      some (.ok ended.outcome, { s with current := some ended }) := by
  induction k generalizing r with
  | zero =>
      subst hended
      exact stepAll_of_next_eq s hsound habort hrest 0
  | succ k ih =>
      cases hnow : r.isOver with
      | true =>
          rw [Run.proceed_of_isOver hnow] at hended
          subst hended
          exact stepAll_of_isOver s habort hnow (k + 1)
      | false =>
          rw [Run.proceed_of_not_isOver hnow] at hended
          rcases stepAll_of_not_isOver s hsound hnow (k + 1) with ⟨hstop, hlast⟩ | ⟨hnext, hround⟩
          · have hsame : (r.next s.limit s.recording).proceed s.limit s.recording k =
                r.next s.limit s.recording :=
              Run.proceed_of_next_eq hstop (Nat.zero_le k)
            rw [hlast, ← hended, hsame]
          · rw [hround]
            exact ih (hsound.next _ _) hnext hended

/-- **Stepping through a run ends where the run does.** -/
theorem exists_stepAll_iff {p : Program} (hp : p.LaidOut) (s : Session)
    {result : Except Misuse Outcome} :
    (∃ n, (s.install p).stepAll n = some (result, after)) ↔
      ∃ ended, p.Ends s.limit s.recording ended ∧ result = .ok ended.outcome ∧
        after = { s with current := some ended } := by
  have hsound := Run.Sound.initial hp
  constructor
  · rintro ⟨n, hn⟩
    obtain ⟨k, ended, hk, hrest, hresult, hafter⟩ := exists_proceed_of_stepAll hsound rfl hn
    exact ⟨ended, hp.ends_iff.mpr ⟨k, hk, hrest⟩, hresult, hafter⟩
  · rintro ⟨ended, hends, rfl, rfl⟩
    obtain ⟨k, hk, hrest⟩ := hp.ends_iff.mp hends
    exact ⟨k + 1, stepAll_proceed hsound rfl hk hrest⟩

/-- A session runs its program from the start, whatever it did before. -/
theorem exists_run_iff (hr : s.current = some r) {override : Option Int} :
    (∃ fuel, s.run override fuel = .ok (some after)) ↔
      ∃ ended, r.program.Ends (override.or s.limit) s.recording ended ∧
        after = { s with current := some ended } := by
  have hrun : ∀ fuel, s.run override fuel = .ok (some after) ↔
      ∃ ended, r.program.run? (override.or s.limit) s.recording fuel = some ended ∧
        { s with current := some ended } = after := by
    intro fuel
    simp only [run, loaded, hr, Except.map, Except.ok.injEq, Option.map_eq_some_iff]
  constructor
  · rintro ⟨fuel, hfuel⟩
    obtain ⟨ended, hended, rfl⟩ := (hrun fuel).mp hfuel
    exact ⟨ended, ⟨fuel, hended⟩, rfl⟩
  · rintro ⟨ended, ⟨fuel, hended⟩, rfl⟩
    exact ⟨fuel, (hrun fuel).mpr ⟨ended, hended, rfl⟩⟩

/-- **Whole runs, stepping and recording agree.**  However a session was reached, running
its program under a limit ends exactly if a fresh session with the same settings can be
stepped through it: with the same output, error and run, which is the machine, the trace
and the reason if it was broken off.  Two sessions that agree in all but their recordings
go on to do so, and answer alike but for recorded states, if they are asked the same,
wherever recording is switched on or off between. -/
theorem Reachable.run_stepwise {s : Session} {r : Run} (h : s.Reachable)
    (hr : s.current = some r) :
    (∀ override, ∃ begun,
      reset (install { limit := override.or s.limit, recording := s.recording } r.program) =
        .ok begun ∧
      (∀ fuel after, s.run override fuel = .ok (some after) →
        ∃ ended n, after = { s with current := some ended } ∧
          begun.stepAll n = some (.ok ended.outcome, { begun with current := some ended })) ∧
      (∀ n result last, begun.stepAll n = some (result, last) →
        ∃ ended fuel, result = .ok ended.outcome ∧ last = { begun with current := some ended } ∧
          s.run override fuel = .ok (some { s with current := some ended }))) ∧
    (∀ a b : Session, a.plain = b.plain → ∀ requests requests' : List Request,
      requests.filter (fun request => !request.switches) =
        requests'.filter (fun request => !request.switches) →
      (a.conduct requests).1.map Answer.plain = (b.conduct requests').1.map Answer.plain ∧
        (a.conduct requests).2.plain = (b.conduct requests').2.plain) := by
  constructor
  · intro override
    have hp := (h.sound r hr).laidOut
    generalize hfresh :
      ({ limit := override.or s.limit, recording := s.recording } : Session) = fresh
    have hlimit : fresh.limit = override.or s.limit := by
      rw [← hfresh]
    have hrecording : fresh.recording = s.recording := by
      rw [← hfresh]
    refine ⟨fresh.install r.program, rfl, ?_, ?_⟩
    · intro fuel after hrun
      obtain ⟨ended, hends, hafter⟩ := (exists_run_iff hr).mp ⟨fuel, hrun⟩
      rw [← hlimit, ← hrecording] at hends
      obtain ⟨n, hn⟩ := (exists_stepAll_iff hp fresh).mpr ⟨ended, hends, rfl, rfl⟩
      exact ⟨ended, n, hafter, hn⟩
    · intro n result last hlast
      obtain ⟨ended, hends, hresult, hlast⟩ := (exists_stepAll_iff hp fresh).mp ⟨n, hlast⟩
      rw [hlimit, hrecording] at hends
      obtain ⟨fuel, hrun⟩ := (exists_run_iff hr).mpr ⟨ended, hends, rfl⟩
      exact ⟨ended, fuel, hresult, hlast, hrun⟩
  · intro a b hplain requests requests' hrequests
    obtain ⟨hanswers, hlast⟩ := a.plain_conduct requests
    obtain ⟨hanswers', hlast'⟩ := b.plain_conduct requests'
    rw [hanswers, hlast, hanswers', hlast', hplain, hrequests]
    exact ⟨rfl, rfl⟩

/-- A run that was broken off by its limit, and is run again until an instruction fails;
recording is switched on between two steps, or never. -/
theorem Reachable.run_stepwise_again :
    ∃ s r ended begun n, Reachable s ∧ s.current = some r ∧
      r.abort = some (.exhausted 1) ∧ r.history.length = 1 ∧
      s.run (some 5) 0 = .ok (some { s with current := some ended }) ∧
      reset (install { limit := some 5, recording := true } r.program) = .ok begun ∧
      begun.stepAll n = some (.ok ended.outcome, { begun with current := some ended }) ∧
      ended.trace.length = 2 ∧
      ended.outcome = .aborted (.failed
        { fault := .unsetRegister ['b'], line := some 1, source := some "msg 'x',b".toList,
          output := ['x'] }) ∧
      (s.conduct [.reset, .setRecording false, .step, .setRecording true, .step]).1.map
          Answer.plain =
        (s.conduct [.setRecording false, .reset, .step, .step]).1.map Answer.plain := by
  obtain ⟨p, hp⟩ : ∃ p, p =
      ({ lines :=
          [.instruction { opcode := .mov, operands := [.register ['a'], .integer 1],
                          token := "mov".toList, text := "mov a,1".toList },
            .instruction { opcode := .msg, operands := [.text ['x'], .register ['b']],
                           token := "msg".toList, text := "msg 'x',b".toList }] } :
        Program) := ⟨_, rfl⟩
  have hload : ({ recording := true } : Session).load "mov a,1\nmsg 'x',b".toList =
      .ok (install { recording := true } p) := by
    subst hp
    decide +kernel
  have hreach := ((Reachable.fresh none true).next (.load hload)).next
    (@Becomes.run _ _ (some 1) 0 rfl)
  obtain ⟨hstepwise, halike⟩ := hreach.run_stepwise rfl
  obtain ⟨begun, hbegun, hrun, -⟩ := hstepwise (some 5)
  obtain ⟨ended, n, hended, hn⟩ := hrun 0 _ rfl
  cases hended
  refine ⟨_, _, _, begun, n, hreach, rfl, ?_, ?_, rfl, hbegun, hn, ?_, ?_, ?_⟩
  · subst hp
    decide +kernel
  · subst hp
    decide +kernel
  · subst hp
    decide +kernel
  · subst hp
    decide +kernel
  · exact (halike _ _ rfl
      [.reset, .setRecording false, .step, .setRecording true, .step]
      [.setRecording false, .reset, .step, .step] rfl).1

end Session
end RegisterMachine
