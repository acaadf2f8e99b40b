import RegisterMachine.Proofs.Resting
import RegisterMachine.Proofs.Stepwise

/-!
# Progress and ends

A session that has a run left takes exactly one of five steps, and says which.  Once the
run is over, every step is refused and changes nothing, however often it is asked for.  The
same goes for a limit that is spent but too long to be shown, except that the session keeps
no reason for it, and that the steps raise another error.

**Contents.**
* `Run.Advances`: what a step reports, and the run that it leaves.

**Results.**
* `Run.Sound.advances`: a run that is not over advances.
* `Session.conduct_replicate_step`: a step that changes nothing is answered alike again and
  again.
* `Session.Reachable.step_progress`: progress, and the ends that absorb every step.
* `Session.Reachable.exists_step_unrecorded`: an error that a session keeps no reason for.
-/

namespace RegisterMachine
namespace Run

variable {r : Run} {limit : Option Int} {recording : Bool}

/-- What a step reports, and the run that it leaves: an instruction was executed and
counted, the program counter moved behind the last line, an instruction failed and was not
counted, or the limit left no room for the next instruction.  An error about the limit breaks
the run off, unless the limit is too long for the error to be made. -/
inductive Advances (limit : Option Int) (recording : Bool) (r : Run) : Progress → Run → Prop
  | executed {i : Instruction} {after : Machine}
      (hi : r.program.instructionAt? r.ready.pc = some i)
      (hexecute : i.execute r.program r.ready = { machine := after })
      (hcycles : after.cycles = r.machine.cycles + 1) :
      Advances limit recording r
        (.executed (entryOf recording i r.ready { machine := after }))
        { r with machine := after, history := recorded recording i r, abort := none }
  | ranOff :
      Advances limit recording r .ranOff { r with machine := r.machine.jump r.program.size }
  | failed {i : Instruction} {after : Machine} {failure : Failure}
      (hi : r.program.instructionAt? r.ready.pc = some i)
      (hexecute : i.execute r.program r.ready =
        { machine := after, fault := some failure.fault })
      (hcycles : after.cycles = r.machine.cycles) :
      Advances limit recording r (.aborted (.failed failure))
        { r with
          machine := after, history := recorded recording i r, abort := some (.failed failure) }
  | exhausted {i : Instruction} {most pc : Int} (hmost : limit = some most)
      (hspent : most ≤ r.machine.cycles) (hshort : Numeral.isShowable most = true)
      (hskips : r.machine.Skips r.program (r.machine.jump pc))
      (hi : r.program.instructionAt? pc = some i) :
      Advances limit recording r (.aborted (.exhausted most))
        { r with machine := r.machine.jump pc, abort := some (.exhausted most) }
  | escaped {i : Instruction} {most pc : Int} (hmost : limit = some most)
      (hspent : most ≤ r.machine.cycles) (hlong : Numeral.isShowable most = false)
      (hskips : r.machine.Skips r.program (r.machine.jump pc))
      (hi : r.program.instructionAt? pc = some i) :
      Advances limit recording r (.escaped {}) { r with machine := r.machine.jump pc }

/-- Where nothing is left to execute, settling leads behind the last line. -/
theorem Sound.ready_eq_of_none (h : r.Sound)
    (hi : r.program.instructionAt? r.ready.pc = none) :
    r.ready = r.machine.jump r.program.size := by
  have hnonneg := h.machine.pc_nonneg
  have hge := (Machine.instructionAt?_settle hnonneg).mp hi
  have hle := Machine.settle_le_size hnonneg h.machine.pc_le
  have hpc : r.ready.pc = r.program.size := Int.le_antisymm hle hge
  rw [← hpc]
  exact (Machine.skips_settle hnonneg).same

/-- **A run that is not over advances.** -/
theorem Sound.advances (h : r.Sound) (hover : r.isOver = false) (limit : Option Int)
    (recording : Bool) :
    r.Advances limit recording (r.step limit recording).1 (r.step limit recording).2 := by
  cases hi : r.program.instructionAt? r.ready.pc with
  | none =>
      rw [step_of_none hover hi, h.ready_eq_of_none hi]
      exact .ranOff
  | some i =>
      cases hspent : spent? limit r.machine.cycles with
      | some most =>
          obtain ⟨hmost, hle⟩ := spent?_eq_some_iff.mp hspent
          have hskips := Machine.skips_settle h.machine.pc_nonneg (p := r.program)
          rw [step_of_spent hover hi hspent]
          cases hshort : Numeral.isShowable most with
          | true =>
              rw [exhausted_of_isShowable hshort]
              exact .exhausted hmost hle hshort hskips hi
          | false =>
              rw [exhausted_of_not_isShowable hshort]
              exact .escaped hmost hle hshort hskips hi
      | none =>
          rw [step_of_attempt hover hi hspent, attempted_eq]
          -- the tick of a performed action is the one cycle that is counted
          rcases i.execute_cases r.program r.ready with ⟨after, hperforms, heq⟩ | hfails
          · have hcycles : after.tick.cycles = r.machine.cycles + 1 :=
              congrArg (· + 1) hperforms.cycles_eq
            rw [heq]
            exact .executed hi heq hcycles
          · obtain ⟨fault, hfault⟩ := Option.ne_none_iff_exists'.mp hfails.fault_ne_none
            have hexecute : i.execute r.program r.ready =
                { machine := (i.execute r.program r.ready).machine, fault := some fault } := by
              rw [← hfault]
            rw [failureOf, hfault]
            exact .failed hi hexecute hfails.cycles_eq

/-- After an error about its limit a run is stuck. -/
theorem Sound.stuck_of_escaped (h : r.Sound) (hover : r.isOver = false) {error : Unshowable}
    (hstep : (r.step limit recording).1 = .escaped error) :
    (r.next limit recording).Stuck limit := by
  rcases h.step_fst_cases hover limit recording with
    ⟨cause, hcause, -⟩ | ⟨-, hstuck⟩ | ⟨⟨entry, hentry⟩ | hranOff, -⟩
  · rw [hcause] at hstep
    cases hstep
  · exact hstuck
  · rw [hentry] at hstep
    cases hstep
  · rw [hranOff] at hstep
    cases hstep

end Run

namespace Session

variable {s : Session} {r : Run}

/-- **A step that changes nothing is answered alike again and again.** -/
theorem conduct_replicate_step {progress : Progress} (h : s.step = (progress, s)) (n : Nat) :
    s.conduct (List.replicate n .step) = (List.replicate n (.stepped progress), s) := by
  induction n with
  | zero =>
      rfl
  | succ n ih =>
      simp only [List.replicate_succ, conduct, handle, h, ih]
      rfl

theorem step_eq (hr : s.current = some r) :
    s.step =
      ((r.step s.limit s.recording).1,
        { s with current := some (r.step s.limit s.recording).2 }) := by
  rw [step, hr]

/-- A session whose run is stuck stays as it is. -/
theorem step_of_stuck (hr : s.current = some r) (h : r.Stuck s.limit) :
    s.step = (.escaped {}, s) := by
  rw [step_eq hr, h.step_eq, ← hr]

/-- **Progress, and the ends that absorb every step.**  However a session was reached, once
its run was broken off or has finished, it refuses every further step and stays as it is;
until then a step advances the run in one of five ways, which it reports.  One of them is an
error that the session keeps no reason for, and every step after it raises that error again
and leaves the session as it is.  A source text that cannot be read changes nothing. -/
theorem Reachable.step_progress {s : Session} {r : Run} (h : s.Reachable)
    (hr : s.current = some r) :
    (∀ cause, s.abort = some cause → ∀ n,
      s.conduct (List.replicate n .step) =
        (List.replicate n (.stepped (.refused (.aborted cause))), s)) ∧
    (s.abort = none → s.finished = true → ∀ n,
      s.conduct (List.replicate n .step) =
        (List.replicate n (.stepped (.refused .finished)), s)) ∧
    (s.abort = none → s.finished = false → ∃ after,
      s.step.2 = { s with current := some after } ∧
        r.Advances s.limit s.recording s.step.1 after ∧
        ∀ error, s.step.1 = .escaped error → ∀ n,
          s.step.2.conduct (List.replicate n .step) =
            (List.replicate n (.stepped (.escaped error)), s.step.2)) ∧
    (∀ source e, Program.ofSource source = .error e → ∀ requests,
      s.conduct (.load source :: requests) =
        (.unreadable e :: (s.conduct requests).1, (s.conduct requests).2)) := by
  have habort : s.abort = r.abort := by
    rw [abort, hr, Option.bind_some]
  have hfinished : s.finished = r.machine.finished r.program := by
    rw [finished, hr, Option.any_some]
  have hstep := step_eq hr
  have hsame : { s with current := some r } = s := by
    rw [← hr]
  refine ⟨?_, ?_, ?_, ?_⟩
  · intro cause hcause
    rw [habort] at hcause
    rw [Run.step_of_abort hcause, hsame] at hstep
    exact conduct_replicate_step hstep
  · intro hnone hend
    rw [habort] at hnone
    rw [hfinished] at hend
    rw [Run.step_of_finished hnone hend, hsame] at hstep
    exact conduct_replicate_step hstep
  · intro hnone hend
    rw [habort] at hnone
    have hover : r.isOver = false := by
      rw [Run.isOver_of_abort_eq_none hnone, ← hfinished, hend]
    rw [hstep]
    refine ⟨_, rfl, (h.sound r hr).advances hover s.limit s.recording, ?_⟩
    rintro ⟨⟩ hescaped
    have hstuck := (h.sound r hr).stuck_of_escaped hover hescaped
    -- the run that the error has left is the one that the next step starts from
    rw [Run.step_eq_next]
    exact conduct_replicate_step (step_of_stuck rfl hstuck)
  · intro source e he requests
    have hload : s.load source = .error e := by
      rw [load, he]
      rfl
    simp only [conduct, handle, hload]
    rfl

/-- A limit that is spent in front of an idle line and a label, and the steps after that. -/
theorem Reachable.step_progress_exhausted :
    ∃ s r after, Reachable s ∧ s.current = some r ∧ r.machine.pc = 1 ∧
      s.step.2 = { s with current := some after } ∧
      r.Advances (some 1) true (.aborted (.exhausted 1)) after ∧ after.machine.pc = 3 ∧
      s.step.2.conduct [.step, .step] =
        ([.stepped (.refused (.aborted (.exhausted 1))),
          .stepped (.refused (.aborted (.exhausted 1)))], s.step.2) := by
  obtain ⟨p, hp⟩ : ∃ p, p =
      ({ lines :=
          [.instruction { opcode := .mov, operands := [.register ['a'], .integer 1],
                          token := "mov".toList, text := "mov a,1".toList },
            .blank, .label ['f'],
            .instruction { opcode := .inc, operands := [.register ['a']],
                           token := "inc".toList, text := "inc a".toList }],
          labels := [(['f'], 2)] } : Program) := ⟨_, rfl⟩
  have hload : ({ limit := some 1, recording := true } : Session).load
      "mov a,1\n\nf:\ninc a".toList =
        .ok (install { limit := some 1, recording := true } p) := by
    subst hp
    decide +kernel
  have hreach := ((Reachable.fresh (some 1) true).next (.load hload)).next (.step _)
  have hstep : (install { limit := some 1, recording := true } p).step.2.step.1 =
      .aborted (.exhausted 1) := by
    subst hp
    decide +kernel
  obtain ⟨-, -, hadvances, -⟩ := hreach.step_progress rfl
  obtain ⟨after, hafter, hadvances, -⟩ := hadvances (by subst hp; rfl) (by subst hp; rfl)
  rw [hstep] at hadvances
  obtain ⟨hrefused, -⟩ := (hreach.next (.step _)).step_progress (congrArg current hafter)
  refine ⟨_, _, after, hreach, rfl, by subst hp; rfl, hafter, hadvances, ?_,
    hrefused _ (by subst hp; rfl) 2⟩
  have hpc : ((install { limit := some 1, recording := true } p).step.2.step.2.current.map
      fun r => r.machine.pc) = some 3 := by
    subst hp
    rfl
  rw [hafter] at hpc
  exact Option.some.inj hpc

/-- A limit with one digit too many stops a session in front of its first instruction.  The
step raises an error, and the session keeps no reason for it. -/
theorem Reachable.exists_step_unrecorded :
    ∃ s after, Reachable s ∧ s.limit = some (-(Numeral.overlong : Int)) ∧
      s.abort = none ∧ s.finished = false ∧ s.step = (.escaped {}, after) ∧
      after.abort = none ∧ after.finished = false := by
  obtain ⟨p, hp⟩ : ∃ p, p =
      ({ lines := [.instruction { opcode := .halt, token := "end".toList,
                                  text := "end".toList }] } : Program) := ⟨_, rfl⟩
  have hsource : Program.ofSource "end".toList = .ok p := by
    subst hp
    decide +kernel
  obtain ⟨most, hmost⟩ : ∃ most : Int, most = -Numeral.overlong := ⟨_, rfl⟩
  have hlong : Numeral.isShowable most = false := by
    rw [hmost]
    exact Numeral.not_isShowable_neg_overlong
  have hnonpos : most ≤ 0 := by
    rw [hmost]
    exact Numeral.neg_overlong_nonpos
  have hspent : Run.spent? (some most) 0 = some most :=
    Run.spent?_eq_some_iff.mpr ⟨rfl, hnonpos⟩
  rw [← hmost]
  have hload : ({ limit := some most } : Session).load "end".toList =
      .ok (install { limit := some most } p) := by
    rw [load, hsource]
    rfl
  have hstuck : (Run.start p).Stuck (some most) := by
    subst hp
    exact ⟨rfl, rfl, ⟨_, rfl⟩, most, hspent, hlong⟩
  have hnotFinished : (install { limit := some most } p).finished = false := by
    subst hp
    rfl
  exact ⟨_, _, (Reachable.fresh (some most) false).next (.load hload), rfl, rfl, hnotFinished,
    step_of_stuck rfl hstuck, rfl, hnotFinished⟩

end Session
end RegisterMachine
