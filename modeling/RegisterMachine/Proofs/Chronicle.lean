import Mathlib.Data.List.Chain
import RegisterMachine.Proofs.Execution
import RegisterMachine.Proofs.Skipping
import RegisterMachine.Report.Change

/-!
# The trace of a run

While states are recorded, the trace of a run has one entry for each attempted
instruction.  An entry holds the machine before and after its instruction, and between
two entries the machine has only moved over lines that have nothing to execute.

**Contents.**
* `Entry.Faithful`: what an entry has to say about its instruction.
* `Run.latest`: the machine behind the latest entry.
* `Run.Chronicled`: what the entries of a run have to do with each other and with the run.

**Results.**
* `Entry.faithful_entryOf`: the record of an attempt is faithful.
* `Run.Chronicled.next`: a recorded step keeps a run chronicled.
* `Program.trace_faithful`: the trace of a whole run.
-/

namespace RegisterMachine

/-- An instruction that is executed is counted. -/
theorem Instruction.cycles_execute {i : Instruction} {p : Program} {m : Machine}
    (h : (i.execute p m).fault = none) : (i.execute p m).machine.cycles = m.cycles + 1 := by
  rcases i.execute_cases p m with ⟨after, hperforms, heq⟩ | hfails
  · rw [heq, ← hperforms.cycles_eq]
    rfl
  · exact absurd h hfails.fault_ne_none

namespace Entry

/-- An entry that tells of an attempt at an instruction of a program: where it stands, how it
is shown, and what it made of the machine. -/
structure Faithful (p : Program) (e : Entry) : Prop where
  states : e.states = some (e.before, e.after)
  cycle : e.cycle = e.before.cycles
  line : e.line = e.before.pc
  instruction : p.instructionAt? e.before.pc = some e.instruction
  text : e.text = e.instruction.text
  mnemonic : e.mnemonic = e.instruction.opcode.mnemonic
  operands : e.operands = e.instruction.operands.map Operand.write
  executes : e.instruction.execute p e.before =
    { machine := e.after, fault := e.failure.map Failure.fault }

variable {p : Program} {e : Entry}

/-- The record of an attempt is faithful. -/
theorem faithful_entryOf {i : Instruction} {ready : Machine}
    (hi : p.instructionAt? ready.pc = some i) :
    (Run.entryOf true i ready (i.execute p ready)).Faithful p where
  states := rfl
  cycle := rfl
  line := rfl
  instruction := hi
  text := rfl
  mnemonic := rfl
  operands := rfl
  executes := by
    show i.execute p ready =
      { machine := (i.execute p ready).machine
        fault := (Run.failureOf i ready (i.execute p ready)).map Failure.fault }
    rw [Run.failureOf]
    cases i.execute p ready with
    | mk machine fault => cases fault <;> rfl

theorem Faithful.cycles_after (h : e.Faithful p) (hfailure : e.failure = none) :
    e.after.cycles = e.cycle + 1 := by
  have hexecutes := h.executes
  rw [hfailure] at hexecutes
  have hcycles := @Instruction.cycles_execute e.instruction p e.before (by rw [hexecutes]; rfl)
  rw [hexecutes] at hcycles
  rw [h.cycle]
  exact hcycles

end Entry

namespace Run

variable {r : Run} {limit : Option Int}

/-- The machine behind the latest entry, or the initial one. -/
def latest (r : Run) : Machine :=
  (r.history.head?.map Entry.after).getD {}

/-- What the entries of a run have to do with each other and with the run.  The latest entry
comes first. -/
structure Chronicled (r : Run) : Prop where
  faithful : ∀ e ∈ r.history, e.Faithful r.program
  /-- From one entry to the next, the machine only moves over idle lines. -/
  linked : r.history.IsChain fun later earlier => earlier.after.Skips r.program later.before
  first : ∀ e, r.history.getLast? = some e → Machine.Skips r.program {} e.before
  latest : r.latest.Skips r.program r.machine
  numbered : r.trace.map Entry.cycle = List.range r.history.length
  /-- The latest entry tells of the failure of the run, if it failed. -/
  failure : ∀ failure, (∃ e, r.history.head? = some e ∧ e.failure = some failure) ↔
    r.abort = some (.failed failure)
  /-- No other entry tells of a failure. -/
  earlier : ∀ e ∈ r.history.tail, e.failure = none
  length : r.history.length = r.attempts

namespace Chronicled

theorem initial (p : Program) : (start p).Chronicled where
  faithful := by simp [start]
  linked := .nil
  first := by simp [start]
  latest := .refl p {}
  numbered := rfl
  failure := by simp [start]
  earlier := by simp [start]
  length := rfl

/-- A run that is not over has recorded no failure. -/
theorem failure_eq_none (h : r.Chronicled) (hover : r.isOver = false) :
    ∀ e ∈ r.history, e.failure = none := by
  intro e he
  have hearlier := h.earlier
  have hfailure := h.failure
  rw [abort_of_not_isOver hover] at hfailure
  cases hhistory : r.history with
  | nil =>
      rw [hhistory] at he
      cases he
  | cons first others =>
      rw [hhistory] at he hearlier hfailure
      rcases List.mem_cons.mp he with rfl | he
      · rw [Option.eq_none_iff_forall_ne_some]
        intro failure hsome
        cases (hfailure failure).mp ⟨e, rfl, hsome⟩
      · exact hearlier e he

theorem skips_ready (h : r.Chronicled) (hnonneg : 0 ≤ r.machine.pc) :
    r.latest.Skips r.program r.ready :=
  h.latest.trans (Machine.skips_settle hnonneg)

/-- Moving over idle lines records nothing, even if the limit breaks the run off then. -/
theorem skipped (h : r.Chronicled) (hnonneg : 0 ≤ r.machine.pc) (hover : r.isOver = false)
    {abort : Option Abort} (habort : ∀ failure, abort ≠ some (.failed failure)) :
    Chronicled { r with machine := r.ready, abort } where
  faithful := h.faithful
  linked := h.linked
  first := h.first
  latest := h.skips_ready hnonneg
  numbered := h.numbered
  failure failure := by
    simp only [habort failure, iff_false, not_exists, not_and]
    intro e he hfailure
    rw [h.failure_eq_none hover e (List.mem_of_mem_head? he)] at hfailure
    cases hfailure
  earlier := h.earlier
  length := by
    have hattempts : attempts { r with machine := r.ready, abort } = r.machine.cycles := by
      unfold attempts
      split
      · rename_i failure heq
        exact absurd heq (habort failure)
      · rfl
    rw [hattempts, ← attempts_of_not_isOver hover]
    exact h.length

/-- A faithful entry on the machine at hand is recorded behind the earlier ones. -/
theorem cons (h : r.Chronicled) (hnonneg : 0 ≤ r.machine.pc) (hover : r.isOver = false)
    {e : Entry} (hfaithful : e.Faithful r.program) (hbefore : e.before = r.ready) {after : Run}
    (hafter : after = { r with machine := e.after, history := e :: r.history,
                               abort := e.failure.map .failed })
    (hattempts : after.attempts = r.attempts + 1) : after.Chronicled := by
  have hskips := h.skips_ready hnonneg
  rw [← hbefore, Run.latest] at hskips
  subst hafter
  refine ⟨List.forall_mem_cons.mpr ⟨hfaithful, h.faithful⟩, ?_, ?_, .refl _ _, ?_, ?_,
    h.failure_eq_none hover, ?_⟩
  · refine List.isChain_cons.mpr ⟨?_, h.linked⟩
    intro earlier hearlier
    rw [Option.mem_def.mp hearlier] at hskips
    exact hskips
  · intro first hfirst
    cases hhistory : r.history with
    | nil =>
        simp only [hhistory, List.getLast?_singleton, Option.some.injEq] at hfirst
        rw [hhistory] at hskips
        rw [← hfirst]
        exact hskips
    | cons latest others =>
        apply h.first
        simpa [hhistory] using hfirst
  · have hcycle : e.cycle = r.history.length := by
      rw [h.length, attempts_of_not_isOver hover, hfaithful.cycle, hbefore]
      rfl
    have hnumbered := h.numbered
    rw [trace] at hnumbered
    rw [trace, List.reverse_cons, List.map_append, hnumbered, List.length_cons, List.range_succ,
      List.map_singleton, hcycle]
  · intro failure
    simp only [List.head?_cons, Option.some.injEq, exists_eq_left', Option.map_eq_some_iff,
      Abort.failed.injEq, exists_eq_right]
  · rw [hattempts, List.length_cons, h.length]

/-- An attempt at an instruction is recorded. -/
theorem attempted (h : r.Chronicled) (hnonneg : 0 ≤ r.machine.pc) (hover : r.isOver = false)
    {i : Instruction} (hi : r.program.instructionAt? r.ready.pc = some i)
    (hspent : spent? limit r.machine.cycles = none) :
    (r.next limit true).Chronicled := by
  have hattempts : (r.next limit true).attempts = r.attempts + 1 := by
    rw [next_of_not_spent hspent]
    rcases attempts_next hover true with hsucc | ⟨hnone, -⟩
    · exact hsucc
    · rw [hi] at hnone
      cases hnone
  exact h.cons hnonneg hover (Entry.faithful_entryOf hi) rfl
    (next_of_attempt hover hi hspent) hattempts

/-- **A recorded step keeps a run chronicled.** -/
theorem next (h : r.Chronicled) (hsound : r.Sound) (limit : Option Int) :
    (r.next limit true).Chronicled := by
  have hnonneg := hsound.machine.pc_nonneg
  cases hover : r.isOver with
  | true =>
      rw [next_of_isOver hover]
      exact h
  | false =>
      cases hi : r.program.instructionAt? r.ready.pc with
      | none =>
          rw [next_of_none hover hi]
          apply h.skipped hnonneg hover
          simp [abort_of_not_isOver hover]
      | some i =>
          cases hspent : spent? limit r.machine.cycles with
          | some most =>
              rw [next_of_spent hover hi hspent]
              apply h.skipped hnonneg hover
              intro failure habort
              cases Abort.ofSpent_eq_some habort
          | none =>
              exact h.attempted hnonneg hover hi hspent

theorem skips_of_trace (h : r.Chronicled) {n : Nat} {e later : Entry}
    (he : r.trace[n]? = some e) (hlater : r.trace[n + 1]? = some later) :
    e.after.Skips r.program later.before := by
  have hchain : r.trace.IsChain fun e later => e.after.Skips r.program later.before :=
    List.isChain_reverse.mpr h.linked
  obtain ⟨hlt, rfl⟩ := List.getElem?_eq_some_iff.mp hlater
  obtain ⟨-, rfl⟩ := List.getElem?_eq_some_iff.mp he
  exact List.isChain_iff_getElem.mp hchain n hlt

theorem cycle_of_trace (h : r.Chronicled) {n : Nat} {e : Entry} (he : r.trace[n]? = some e) :
    e.cycle = n := by
  have hcycle : (r.trace.map Entry.cycle)[n]? = some e.cycle := by
    rw [List.getElem?_map, he, Option.map_some]
  rw [h.numbered] at hcycle
  obtain ⟨hlt, heq⟩ := List.getElem?_eq_some_iff.mp hcycle
  rw [← heq, List.getElem_range]

/-- Only the last entry can tell of a failure. -/
theorem last_of_failure (h : r.Chronicled) {n : Nat} {e : Entry} (he : r.trace[n]? = some e)
    (hfailure : e.failure ≠ none) : n + 1 = r.trace.length := by
  have hearlier := h.earlier
  obtain ⟨hlt, -⟩ := List.getElem?_eq_some_iff.mp he
  unfold trace at he hlt ⊢
  cases hhistory : r.history with
  | nil =>
      rw [hhistory] at hlt
      cases hlt
  | cons latest others =>
      rw [hhistory] at he hlt hearlier
      rw [List.length_reverse, List.length_cons] at hlt ⊢
      by_contra hne
      rw [List.reverse_cons, List.getElem?_append_left (by rw [List.length_reverse]; omega)] at he
      exact hfailure (hearlier e (List.mem_reverse.mp (List.mem_of_getElem? he)))

end Chronicled
end Run

namespace Program

variable {p : Program}

theorem LaidOut.chronicled_course (h : p.LaidOut) (limit : Option Int) (n : Nat) :
    (p.course (.constant limit true) n).Chronicled := by
  induction n with
  | zero =>
      exact .initial p
  | succ n ih =>
      rw [course_succ]
      exact ih.next (h.sound_course _ n) limit

/-- **The trace is a faithful chain.**  Its entries are numbered, and each tells of the
instruction at its line and of what that made of the machine.  From one entry to the next,
and before the first one, the machine only moves over lines that have nothing to execute.
Only the last entry can tell of a failure, and it does exactly if the run failed.  There
are as many entries as executed instructions, and one more for a failure. -/
theorem trace_faithful {source : Text} {p : Program} (h : ofSource source = .ok p)
    {limit : Option Int} {r : Run} (hends : p.Ends limit true r) :
    (∀ n e, r.trace[n]? = some e →
      e.cycle = n ∧ e.before.cycles = n ∧ e.Faithful p ∧
        (e.failure = none → e.after.cycles = n + 1)) ∧
    (∀ n e later, r.trace[n]? = some e → r.trace[n + 1]? = some later →
      e.after.Skips p later.before) ∧
    (∀ e, r.trace.head? = some e → Machine.Skips p {} e.before) ∧
    (∀ n e, r.trace[n]? = some e → e.failure ≠ none → n + 1 = r.trace.length) ∧
    (∀ failure, (∃ e, r.trace.getLast? = some e ∧ e.failure = some failure) ↔
      r.outcome = .aborted (.failed failure)) ∧
    (∀ failure, r.outcome = .aborted (.failed failure) →
      r.trace.length = r.machine.cycles + 1) ∧
    ((∀ failure, r.outcome ≠ .aborted (.failed failure)) →
      r.trace.length = r.machine.cycles) := by
  have hp := laidOut_ofSource h
  obtain ⟨k, rfl, -⟩ := hp.exists_course hends
  have hchronicled := hp.chronicled_course limit k
  have hprogram := p.program_course (.constant limit true) k
  generalize p.course (.constant limit true) k = r at hchronicled hprogram ⊢
  subst hprogram
  have hlength : r.trace.length = r.attempts := by
    rw [Run.trace, List.length_reverse]
    exact hchronicled.length
  refine ⟨?_, fun _ _ _ => hchronicled.skips_of_trace, ?_, fun _ _ => hchronicled.last_of_failure,
    ?_, ?_, ?_⟩
  · intro n e he
    have hcycle := hchronicled.cycle_of_trace he
    have hfaithful := hchronicled.faithful e (List.mem_reverse.mp (List.mem_of_getElem? he))
    refine ⟨hcycle, hfaithful.cycle.symm.trans hcycle, hfaithful, ?_⟩
    intro hfailure
    rw [hfaithful.cycles_after hfailure, hcycle]
  · intro e he
    rw [Run.trace, List.head?_reverse] at he
    exact hchronicled.first e he
  · intro failure
    rw [Run.outcome_eq_aborted_iff, Run.trace, List.getLast?_reverse]
    exact hchronicled.failure failure
  · intro failure houtcome
    rw [hlength, Run.attempts, Run.outcome_eq_aborted_iff.mp houtcome]
  · intro hnever
    rw [hlength, Run.attempts]
    split
    · rename_i failure habort
      exact absurd (Run.outcome_eq_aborted_iff.mpr habort) (hnever failure)
    · rfl

/-- Idle lines before the first instruction and before the second, which fails. -/
theorem trace_faithful_failure :
    ∃ p r first last failure, ofSource "; begin\nmov a,7\nf:\n\ndiv a,0".toList = .ok p ∧
      p.Ends none true r ∧ r.trace = [first, last] ∧
      first.Faithful p ∧ Machine.Skips p {} first.before ∧ first.before.pc = 1 ∧
      first.after.cycles = 1 ∧ first.after.Skips p last.before ∧ first.after.pc = 2 ∧
      last.before.pc = 4 ∧ last.cycle = 1 ∧ last.failure = some failure ∧
      r.outcome = .aborted (.failed failure) ∧ r.trace.length = r.machine.cycles + 1 := by
  obtain ⟨p, hp⟩ : ∃ p, p =
      ({ lines :=
          [.blank,
            .instruction { opcode := .mov, operands := [.register ['a'], .integer 7],
                           token := "mov".toList, text := "mov a,7".toList },
            .label ['f'], .blank,
            .instruction { opcode := .arithmetic .div,
                           operands := [.register ['a'], .integer 0],
                           token := "div".toList, text := "div a,0".toList }]
         labels := [(['f'], 2)] } : Program) := ⟨_, rfl⟩
  have hsource : ofSource "; begin\nmov a,7\nf:\n\ndiv a,0".toList = .ok p := by
    subst hp
    decide +kernel
  have hover : ((Run.start p).proceed none true 2).isOver = true := by
    subst hp
    decide +kernel
  have hends := ends_none_iff.mpr ⟨2, rfl, hover⟩
  have hfailed : ((Run.start p).proceed none true 2).outcome =
      .aborted (.failed { fault := .divisionByZero 7, line := some 4,
                          source := some "div a,0".toList }) := by
    subst hp
    decide +kernel
  have hpcs : ((Run.start p).proceed none true 2).trace.map
      (fun e => (e.before.pc, e.after.pc)) = [(1, 2), (4, 4)] := by
    subst hp
    decide +kernel
  generalize (Run.start p).proceed none true 2 = r at hends hfailed hpcs
  obtain ⟨first, last, htrace⟩ : ∃ first last, r.trace = [first, last] := by
    rw [← List.length_eq_two, ← @List.length_map _ _ r.trace fun e => (e.before.pc, e.after.pc),
      hpcs]
    rfl
  obtain ⟨hentries, hlinks, hfirst, honly, hlast, hlength, -⟩ := trace_faithful hsource hends
  rw [htrace] at hentries hlinks hfirst honly hlast hpcs
  simp only [List.map_cons, List.map_nil, List.cons.injEq, Prod.mk.injEq, and_true] at hpcs
  obtain ⟨⟨hpc, hpc'⟩, hpc'', -⟩ := hpcs
  obtain ⟨-, -, hfaithful, hcycles⟩ := hentries 0 first rfl
  obtain ⟨hcycle, -, -, -⟩ := hentries 1 last rfl
  obtain ⟨e, he, hfailure⟩ := (hlast _).mpr hfailed
  cases he
  have hnone : first.failure = none := by
    by_contra hne
    cases honly 0 first rfl hne
  exact ⟨p, r, first, last, _, hsource, hends, htrace, hfaithful, hfirst first rfl, hpc,
    hcycles hnone, hlinks 0 first last rfl rfl, hpc', hpc'', hcycle, hfailure, hfailed,
    hlength _ hfailed⟩

end Program
end RegisterMachine
