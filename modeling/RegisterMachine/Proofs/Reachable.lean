import RegisterMachine.Proofs.Layout
import RegisterMachine.Proofs.Stepping
import RegisterMachine.Session

/-!
# The runs that a session can reach

A session is used by loading and restarting programs, by stepping and running
them, and by changing its settings, in any order.  Whatever is done with it, its
run keeps an invariant.

**Contents.**
* `Machine.Sound`: the invariant of a machine that executes a program.
* `Run.Sound`: the invariant of a run, with its end and its failure.
* `Session.Becomes`, `Session.Reachable`: the uses of a session, and the sessions
  that they lead to.

**Results.**
* `Machine.Sound.performs`, `Machine.Sound.fails`: an instruction keeps a machine sound.
* `Run.Sound.next`: a step keeps a run sound.
* `Run.Sound.outcome_cases`: how a sound run has ended.
* `Session.Sound.becomes`: every use of a session keeps its run sound.
* `Session.Reachable.run_sound`: the invariant of every reachable session.
-/

namespace RegisterMachine

/-- The invariant of a machine that executes a program. -/
structure Machine.Sound (p : Program) (m : Machine) : Prop where
  pc_nonneg : 0 ≤ m.pc
  pc_le : m.pc ≤ p.size
  /-- The call stack holds the indices of calls. -/
  calls : ∀ c ∈ m.callStack,
    0 ≤ c ∧ c < p.size ∧ ∃ i, p.instructionAt? c = some i ∧ i.opcode = .call
  registers : ∀ name value, (name, value) ∈ m.registers → Word.InRange value
  comparison : ∀ a b, m.comparison = some (a, b) → Word.InRange a ∧ Word.InRange b
  /-- A program has ended itself as soon as it has a result. -/
  halted : m.halted = m.result.isSome

theorem Table.mem_put {α : Type} {t : Table α} {name other : Text} {value found : α}
    (h : (other, found) ∈ put name value t) : found = value ∨ (other, found) ∈ t := by
  induction t with
  | nil =>
      simp only [put, List.mem_singleton, Prod.mk.injEq] at h
      exact .inl h.2
  | cons entry rest ih =>
      by_cases hname : entry.1 = name
      · simp only [put, if_pos hname] at h
        rcases List.mem_cons.mp h with heq | h
        · cases heq
          exact .inl rfl
        · exact .inr (List.mem_cons_of_mem _ h)
      · simp only [put, if_neg hname] at h
        rcases List.mem_cons.mp h with heq | h
        · rw [heq]
          exact .inr List.mem_cons_self
        · rcases ih h with hvalue | hmem
          · exact .inl hvalue
          · exact .inr (List.mem_cons_of_mem _ hmem)

theorem Program.LaidOut.lt_size {p : Program} (h : p.LaidOut) {target : Operand} {index : Nat}
    (hindex : p.locate target = .ok index) : index < p.size := by
  obtain ⟨name, -, hresolve⟩ := Result.bind_eq_ok.mp hindex
  unfold resolve at hresolve
  cases hname : p.labels.get? name with
  | none =>
      simp [hname] at hresolve
  | some found =>
      simp only [hname, Except.ok.injEq] at hresolve
      subst hresolve
      obtain ⟨hlt, -⟩ := List.getElem?_eq_some_iff.mp (h.labelled name found hname)
      exact hlt

namespace Machine.Sound

variable {p : Program} {m : Machine}

theorem initial (p : Program) : Machine.Sound p {} where
  pc_nonneg := Int.le_refl 0
  pc_le := Int.natCast_nonneg p.size
  calls := by simp
  registers := by simp
  comparison := by simp
  halted := rfl

theorem jump (h : m.Sound p) {index : Int} (hnonneg : 0 ≤ index) (hle : index ≤ p.size) :
    (m.jump index).Sound p :=
  ⟨hnonneg, hle, h.calls, h.registers, h.comparison, h.halted⟩

theorem advance (h : m.Sound p) (hlt : m.pc < p.size) : m.advance.Sound p := by
  have hnonneg := h.pc_nonneg
  exact h.jump (by omega) (by omega)

theorem settle (h : m.Sound p) : (m.settle p).Sound p := by
  have hge := pc_le_settle p m
  have hnonneg := h.pc_nonneg
  exact h.jump (Int.le_trans hnonneg hge) (settle_le_size hnonneg h.pc_le)

theorem set (h : m.Sound p) (name : Text) (value : Int) : (m.set name value).Sound p := by
  refine ⟨h.pc_nonneg, h.pc_le, h.calls, ?_, h.comparison, h.halted⟩
  intro other found hfound
  rcases Table.mem_put hfound with rfl | hmem
  · exact Word.inRange_wrap value
  · exact h.registers other found hmem

theorem compare (h : m.Sound p) {a b : Int} (ha : Word.InRange a) (hb : Word.InRange b) :
    (m.compare a b).Sound p := by
  refine ⟨h.pc_nonneg, h.pc_le, h.calls, h.registers, ?_, h.halted⟩
  intro x y hxy
  cases hxy
  exact ⟨ha, hb⟩

theorem push (h : m.Sound p) {i : Instruction} (hi : p.instructionAt? m.pc = some i)
    (hcall : i.opcode = .call) : (m.push m.pc).Sound p := by
  refine ⟨h.pc_nonneg, h.pc_le, ?_, h.registers, h.comparison, h.halted⟩
  intro c hc
  rcases List.mem_cons.mp hc with rfl | hc
  · exact ⟨h.pc_nonneg, lt_size_of_instructionAt? hi, i, hi, hcall⟩
  · exact h.calls c hc

theorem append (h : m.Sound p) (s : Text) : (m.append s).Sound p :=
  ⟨h.pc_nonneg, h.pc_le, h.calls, h.registers, h.comparison, h.halted⟩

theorem finish (h : m.Sound p) : m.finish.Sound p :=
  ⟨h.pc_nonneg, h.pc_le, h.calls, h.registers, h.comparison, rfl⟩

theorem tick (h : m.Sound p) : m.tick.Sound p :=
  ⟨h.pc_nonneg, h.pc_le, h.calls, h.registers, h.comparison, h.halted⟩

theorem inRange_eval (h : m.Sound p) {operand : Operand} {value : Int}
    (hword : ∀ n, operand = .integer n → Word.InRange n)
    (heval : m.eval operand = .ok value) : Word.InRange value := by
  have hread : ∀ name, m.read name = .ok value → Word.InRange value := by
    intro name hread
    exact h.registers name value (Table.mem_of_get?_eq_some (read_eq_ok.mp hread))
  cases operand with
  | integer n =>
      cases heval
      exact hword _ rfl
  | text content =>
      cases heval
  | label name =>
      exact hread name heval
  | register name =>
      exact hread name heval

/-- **An instruction that succeeds keeps a machine sound.** -/
theorem performs (h : m.Sound p) (hp : p.LaidOut) {i : Instruction} {after : Machine}
    (hi : p.instructionAt? m.pc = some i) (hperforms : i.action.Performs p m after) :
    after.tick.Sound p := by
  have hlt := lt_size_of_instructionAt? hi
  have hdecoded := hp.decoded m.pc i hi
  have hform := hdecoded.form
  generalize i.action = action at hperforms hform
  apply tick
  cases hperforms with
  | assign hname hvalue =>
      exact (h.set _ _).advance hlt
  | combine hname hlhs hrhs hvalue =>
      exact (h.set _ _).advance hlt
  | compare ha hb =>
      cases hform with
      | compare hopcode hoperands hlhs hrhs =>
          have hwords : ∀ n, .integer n ∈ i.operands → Word.InRange n := hdecoded.words
          rw [hoperands] at hwords
          have hinRange := h.inRange_eval (fun n hn => hwords n (by simp [hn])) ha
          have hinRange' := h.inRange_eval (fun n hn => hwords n (by simp [hn])) hb
          exact (h.compare hinRange hinRange').advance hlt
  | jump hindex =>
      have hsize := hp.lt_size hindex
      exact h.jump (by omega) (by omega)
  | taken hindex _ _ =>
      have hsize := hp.lt_size hindex
      exact h.jump (by omega) (by omega)
  | passed _ _ _ =>
      exact h.advance hlt
  | call hindex =>
      cases hform with
      | call hopcode hoperands =>
          have hsize := hp.lt_size hindex
          exact (h.push hi hopcode).jump (by omega) (by omega)
  | @ret index rest hstack =>
      -- a call stands on a line of the program, so the next one is at most its end
      have hcalls := h.calls
      rw [hstack] at hcalls
      obtain ⟨hnonneg, hindex, -⟩ := hcalls index List.mem_cons_self
      have hrest : Machine.Sound p { m with callStack := rest } :=
        ⟨h.pc_nonneg, h.pc_le, fun c hc => hcalls c (List.mem_cons_of_mem _ hc),
          h.registers, h.comparison, h.halted⟩
      exact hrest.jump (by omega) (by omega)
  | write _ =>
      exact (h.append _).advance hlt
  | halt =>
      exact h.finish

/-- An instruction that fails keeps a machine sound. -/
theorem fails (h : m.Sound p) {a : Action} {attempt : Attempt} (hfails : a.Fails m attempt) :
    attempt.machine.Sound p := by
  cases hfails with
  | untouched _ _ => exact h
  | written _ _ => exact h.append _

end Machine.Sound

namespace Run

/-- The invariant of a run: its machine is sound, an ended program stands at its `END`
with its output as the result, and a run that was broken off stands at the
instruction that was not executed. -/
structure Sound (r : Run) : Prop where
  laidOut : r.program.LaidOut
  machine : r.machine.Sound r.program
  ended : ∀ text, r.machine.result = some text →
    text = r.machine.output ∧
      ∃ i, r.program.instructionAt? r.machine.pc = some i ∧ i.opcode = .halt
  aborted : ∀ cause, r.abort = some cause →
    r.machine.result = none ∧
      ∃ i, r.program.instructionAt? r.machine.pc = some i ∧
        ∀ failure, cause = .failed failure →
          failure.line = some r.machine.pc ∧ failure.source = some i.text ∧
            failure.output = r.machine.output

theorem halted_of_not_isOver {r : Run} (h : r.isOver = false) : r.machine.halted = false := by
  have hfinished := not_finished_of_not_isOver h
  simp only [Machine.finished, Bool.or_eq_false_iff] at hfinished
  exact hfinished.1

theorem Sound.result_of_not_isOver {r : Run} (h : r.Sound) (hover : r.isOver = false) :
    r.machine.result = none := by
  have hhalted := h.machine.halted
  rw [halted_of_not_isOver hover] at hhalted
  exact Option.isNone_iff_eq_none.mp (by simpa using hhalted)

end Run

/-- Only `END` gives a result, which is the output, and it stays where it is. -/
theorem Action.Performs.result {p : Program} {m after : Machine} {a : Action}
    (h : a.Performs p m after) :
    (a = .halt ∧ after = m.finish) ∨ (after.result = m.result ∧ after.halted = m.halted) := by
  cases h with
  | halt => exact .inl ⟨rfl, rfl⟩
  | _ => exact .inr ⟨rfl, rfl⟩

theorem Action.Fails.same {m : Machine} {a : Action} {attempt : Attempt}
    (h : a.Fails m attempt) :
    attempt.machine.pc = m.pc ∧ attempt.machine.result = m.result := by
  cases h <;> exact ⟨rfl, rfl⟩

namespace Run

variable {r : Run} {limit : Option Int} {recording : Bool}

theorem Sound.initial {p : Program} (h : p.LaidOut) : (start p).Sound where
  laidOut := h
  machine := .initial p
  ended := by simp [start]
  aborted := by simp [start]

theorem Sound.moves (h : r.Sound) (hover : r.isOver = false) {after : Run}
    (hmoves : r.Moves limit recording after) : after.Sound := by
  have habort := abort_of_not_isOver hover
  have hready : r.ready.Sound r.program := h.machine.settle
  have hnone : r.ready.result = none := h.result_of_not_isOver hover
  cases hmoves with
  | ranOff hi =>
      refine ⟨h.laidOut, hready, ?_, ?_⟩
      · simp [hnone]
      · simp [habort]
  | @exhausted i most hi hspent =>
      refine ⟨h.laidOut, hready, ?_, ?_⟩
      · simp [hnone]
      · intro cause hcause
        cases Abort.ofSpent_eq_some hcause
        exact ⟨hnone, i, hi, by simp⟩
  | @executed i after hi hspent hperforms =>
      refine ⟨h.laidOut, hready.performs h.laidOut hi hperforms, ?_, ?_⟩
      · intro text htext
        rcases hperforms.result with ⟨haction, rfl⟩ | ⟨hsame, -⟩
        · cases htext
          exact ⟨rfl, i, hi, (h.laidOut.decoded r.ready.pc i hi).opcode_of_halt haction⟩
        · rw [hnone] at hsame
          have hcontra : after.result = some text := htext
          rw [hsame] at hcontra
          cases hcontra
      · simp [habort]
  | @failed i attempt fault hi hspent hfails hfault =>
      obtain ⟨hpc, hsame⟩ := hfails.same
      refine ⟨h.laidOut, hready.fails hfails, ?_, ?_⟩
      · simp [hsame, hnone]
      · rintro _ ⟨⟩
        refine ⟨by rw [hsame, hnone], i, ?_, ?_⟩
        · show r.program.instructionAt? attempt.machine.pc = some i
          rw [hpc]
          exact hi
        · rintro _ ⟨⟩
          exact ⟨by rw [hpc], rfl, rfl⟩

/-- **A step keeps a run sound.** -/
theorem Sound.next (h : r.Sound) (limit : Option Int) (recording : Bool) :
    (r.next limit recording).Sound := by
  cases hover : r.isOver with
  | true =>
      rw [next_of_isOver hover]
      exact h
  | false =>
      exact h.moves hover (moves_next hover limit recording)

theorem Sound.proceed (h : r.Sound) (limit : Option Int) (recording : Bool) (n : Nat) :
    (r.proceed limit recording n).Sound := by
  induction n with
  | zero =>
      exact h
  | succ n ih =>
      rw [proceed_succ]
      exact ih.next limit recording

/-- How a sound run has ended, with what is left of it, or that it has not ended. -/
theorem Sound.outcome_cases (h : r.Sound) :
    (∃ cause, r.outcome = .aborted cause ∧ r.abort = some cause ∧ r.machine.result = none) ∨
    (∃ output, r.outcome = .finished output ∧ r.abort = none ∧
      r.machine.result = some output) ∨
    (r.outcome = .ranOff ∧ r.abort = none ∧ r.machine.result = none ∧ r.isOver = true) ∨
    (r.outcome = .escaped {} ∧ r.abort = none ∧ r.isOver = false) := by
  cases habort : r.abort with
  | some cause =>
      exact .inl ⟨cause, outcome_eq_aborted_iff.mpr habort, rfl, (h.aborted cause habort).1⟩
  | none =>
      right
      rw [outcome_of_abort_eq_none habort]
      cases hover : r.isOver with
      | false =>
          exact .inr (.inr ⟨rfl, rfl, rfl⟩)
      | true =>
          cases hresult : r.machine.result with
          | some output => exact .inl ⟨output, rfl, rfl, rfl⟩
          | none => exact .inr (.inl ⟨rfl, rfl, rfl, rfl⟩)

theorem Sound.outcome_eq_finished_iff (h : r.Sound) {text : Text} :
    r.outcome = .finished text ↔ r.abort = none ∧ r.machine.result = some text := by
  constructor
  · intro houtcome
    rcases h.outcome_cases with ⟨cause, hcase, -⟩ | ⟨output, hcase, habort, hresult⟩ |
      ⟨hcase, -⟩ | ⟨hcase, -⟩
    · cases hcase.symm.trans houtcome
    · cases hcase.symm.trans houtcome
      exact ⟨habort, hresult⟩
    · cases hcase.symm.trans houtcome
    · cases hcase.symm.trans houtcome
  · rintro ⟨habort, hresult⟩
    rw [outcome_of_abort_eq_none habort, hresult]
    cases hover : r.isOver with
    | true =>
        rfl
    | false =>
        rw [h.result_of_not_isOver hover] at hresult
        cases hresult

end Run

/-- A whole run of a program is sound. -/
theorem Program.LaidOut.sound_run? {p : Program} (h : p.LaidOut) {limit : Option Int}
    {recording : Bool} {fuel : Nat} {r : Run} (hrun : p.run? limit recording fuel = some r) :
    r.Sound := by
  have hstart := Run.Sound.initial h
  unfold run? at hrun
  cases limit with
  | some most =>
      cases hrun
      exact hstart.proceed (some most) recording (most.toNat + 1)
  | none =>
      simp only [Option.ite_none_right_eq_some, Option.some.injEq] at hrun
      rw [← hrun.2]
      exact hstart.proceed none recording fuel

namespace Session

/-- One use of a session.  A request that is refused leaves the session as it is; a
step or a run that ends in an error does not. -/
inductive Becomes : Session → Session → Prop
  | load {s after : Session} {source : Text} (h : s.load source = .ok after) : Becomes s after
  | loadRefused {s : Session} {source : Text} {e : LoadError} (h : s.load source = .error e) :
      Becomes s s
  | install (s : Session) {source : Text} {p : Program} (h : Program.ofSource source = .ok p) :
      Becomes s (s.install p)
  | reset {s after : Session} (h : s.reset = .ok after) : Becomes s after
  | resetRefused {s : Session} {e : Misuse} (h : s.reset = .error e) : Becomes s s
  | step (s : Session) : Becomes s s.step.2
  | run {s after : Session} {override : Option Int} {fuel : Nat}
      (h : s.run override fuel = .ok (some after)) : Becomes s after
  | runRefused {s : Session} {override : Option Int} {fuel : Nat} {e : Misuse}
      (h : s.run override fuel = .error e) : Becomes s s
  | setLimit (s : Session) (limit : Option Int) : Becomes s { s with limit }
  | setRecording (s : Session) (recording : Bool) : Becomes s { s with recording }

/-- The sessions that a fresh one can become by any sequence of uses. -/
inductive Reachable : Session → Prop
  | fresh (limit : Option Int) (recording : Bool) : Reachable { limit, recording }
  | next {s after : Session} (h : Reachable s) (hafter : s.Becomes after) : Reachable after

/-- Whether the run of a session, if it has one, is sound. -/
def Sound (s : Session) : Prop :=
  ∀ r, s.current = some r → r.Sound

theorem current_of_loaded {s : Session} {r : Run} (h : s.loaded = .ok r) :
    s.current = some r := by
  unfold loaded at h
  cases hcurrent : s.current <;> simp_all

/-- A step of a session is the next step of its run. -/
theorem step_of_current {s : Session} {r : Run} (h : s.current = some r) :
    s.step.2 = { s with current := some (r.next s.limit s.recording) } := by
  simp [step, h, Run.step_eq_next]

namespace Sound

variable {s after : Session}

theorem fresh (limit : Option Int) (recording : Bool) :
    Session.Sound { limit, recording } := by
  rintro r ⟨⟩

theorem install (s : Session) {p : Program} (h : p.LaidOut) : (s.install p).Sound := by
  rintro _ ⟨⟩
  exact .initial h

theorem step (h : s.Sound) : s.step.2.Sound := by
  cases hcurrent : s.current with
  | none =>
      have hstep : s.step.2 = s := by
        simp [Session.step, hcurrent]
      rw [hstep]
      exact h
  | some r =>
      rw [step_of_current hcurrent]
      rintro _ ⟨⟩
      exact (h r hcurrent).next s.limit s.recording

theorem run (h : s.Sound) {override : Option Int} {fuel : Nat}
    (hrun : s.run override fuel = .ok (some after)) : after.Sound := by
  obtain ⟨r, hr, hafter⟩ := Result.map_eq_ok.mp hrun
  obtain ⟨ended, hended, rfl⟩ := Option.map_eq_some_iff.mp hafter
  rintro _ ⟨⟩
  exact (h r (current_of_loaded hr)).laidOut.sound_run? hended

/-- **Every use of a session keeps it sound.** -/
theorem becomes (h : s.Sound) (hafter : s.Becomes after) : after.Sound := by
  cases hafter with
  | load hload =>
      obtain ⟨p, hp, rfl⟩ := Result.map_eq_ok.mp hload
      exact install s (Program.laidOut_ofSource hp)
  | loadRefused _ =>
      exact h
  | install hp =>
      exact install s (Program.laidOut_ofSource hp)
  | reset hreset =>
      obtain ⟨r, hr, rfl⟩ := Result.map_eq_ok.mp hreset
      exact install s (h r (current_of_loaded hr)).laidOut
  | resetRefused _ =>
      exact h
  | step =>
      exact step h
  | run hrun =>
      exact run h hrun
  | runRefused _ =>
      exact h
  | setLimit _ =>
      exact h
  | setRecording _ =>
      exact h

end Sound

theorem Reachable.sound {s : Session} (h : s.Reachable) : s.Sound := by
  induction h with
  | fresh limit recording => exact .fresh limit recording
  | next _ hafter ih => exact ih.becomes hafter

/-- **The invariant of a session.**  However a session was reached, its machine stays
inside its program, calls return to calls, values are words, a result is the output
at an `END`, and an error points at the instruction that was not executed. -/
theorem Reachable.run_sound {s : Session} {r : Run} (h : s.Reachable)
    (hr : s.current = some r) :
    0 ≤ r.machine.pc ∧ r.machine.pc ≤ r.program.size ∧
    (∀ c ∈ r.machine.callStack, 0 ≤ c ∧ c < r.program.size ∧
      ∃ i, r.program.instructionAt? c = some i ∧ i.opcode = .call) ∧
    (∀ name value, (name, value) ∈ r.machine.registers → Word.InRange value) ∧
    (∀ a b, r.machine.comparison = some (a, b) → Word.InRange a ∧ Word.InRange b) ∧
    (r.machine.halted = true ↔ r.machine.result ≠ none) ∧
    (r.machine.halted = true →
      r.machine.result = some r.machine.output ∧
      (∃ i, r.program.instructionAt? r.machine.pc = some i ∧ i.opcode = .halt) ∧
      s.abort = none) ∧
    (∀ cause, s.abort = some cause →
      r.machine.halted = false ∧ r.machine.pc < r.program.size ∧
      ∃ i, r.program.instructionAt? r.machine.pc = some i ∧
        ∀ failure, cause = .failed failure →
          failure.line = some r.machine.pc ∧ failure.source = some i.text ∧
            failure.output = r.machine.output) := by
  have hsound := h.sound r hr
  have hmachine := hsound.machine
  have habort : s.abort = r.abort := by
    simp [abort, hr]
  have hhalted : r.machine.halted = true ↔ r.machine.result ≠ none := by
    rw [hmachine.halted, Option.isSome_iff_ne_none]
  refine ⟨hmachine.pc_nonneg, hmachine.pc_le, hmachine.calls, hmachine.registers,
    hmachine.comparison, hhalted, ?_, ?_⟩
  · intro hend
    obtain ⟨text, htext⟩ := Option.ne_none_iff_exists'.mp (hhalted.mp hend)
    obtain ⟨rfl, hat⟩ := hsound.ended text htext
    refine ⟨htext, hat, ?_⟩
    rw [habort, Option.eq_none_iff_forall_ne_some]
    intro cause hcause
    rw [(hsound.aborted cause hcause).1] at htext
    cases htext
  · intro cause hcause
    rw [habort] at hcause
    obtain ⟨hresult, i, hi, hfailure⟩ := hsound.aborted cause hcause
    refine ⟨?_, Machine.lt_size_of_instructionAt? hi, i, hi, hfailure⟩
    rw [hmachine.halted, hresult, Option.isSome_none]

/-- A call that leads to a failing line, with the text written before it. -/
theorem Reachable.run_sound_failure :
    ∃ s r, Reachable s ∧ s.current = some r ∧ r.machine.callStack = [0] ∧
      ∃ failure, s.abort = some (.failed failure) ∧ failure.line = some 2 ∧
        failure.output = ['a'] := by
  have hload : ({} : Session).load "call f\nf:\nmsg 'a',b".toList =
      .ok (Session.install {}
        { lines :=
            [.instruction { opcode := .call, operands := [.label ['f']],
                            token := "call".toList, text := "call f".toList },
              .label ['f'],
              .instruction { opcode := .msg, operands := [.text ['a'], .register ['b']],
                             token := "msg".toList, text := "msg 'a',b".toList }]
          labels := [(['f'], 1)] }) := by
    decide +kernel
  have hreach := ((Reachable.fresh none false).next (.load hload)).next (.step _)
  have hreach' := hreach.next (.step _)
  refine ⟨_, _, hreach', rfl, by decide +kernel, _, rfl, ?_⟩
  obtain ⟨-, -, -, -, -, -, -, haborted⟩ := hreach'.run_sound rfl
  obtain ⟨-, -, i, -, hfailure⟩ := haborted _ rfl
  obtain ⟨hline, -, houtput⟩ := hfailure _ rfl
  exact ⟨hline, houtput⟩

end Session
end RegisterMachine
