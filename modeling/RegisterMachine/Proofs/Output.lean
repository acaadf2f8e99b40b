import Mathlib.Data.List.TakeWhile
import RegisterMachine.Proofs.Execution
import RegisterMachine.Proofs.Hazard

/-!
# The output of a run

The output of a run is what its `MSG` instructions said, one after the other: the
content of a quoted text, and the decimal numeral of an integer or of the value that
a register had when the instruction was executed.

**Contents.**
* `Machine.renderable`: the operands before the first that has no text.
* `Execution.message`, `Instruction.remainder`: what an instruction says, and what it
  says before it fails.
* `Run.Tells`: what the executed instructions have to do with the state of a run.

**Results.**
* `Run.Sound.fault_ready`: an instruction of a run raises its first hazard or succeeds.
* `Run.Tells.step`: one step keeps `Tells`.
* `Program.LaidOut.tells_course`: it holds along every course.
* `Program.output_eq_messages`: the output, the result and the failure of every run.
-/

namespace RegisterMachine
namespace Machine

variable {m : Machine}

/-- The operands before the first that is unset or too long to be shown. -/
def renderable (m : Machine) (operands : List Operand) : List Operand :=
  operands.takeWhile fun operand => !(m.lacks operand || m.isOverlong operand)

/-- Operands are rendered up to the first that is unset or too long. -/
theorem rendered_eq_renderable {operands : List Operand} (h : ∀ name, .label name ∉ operands) :
    (m.rendered operands).1 = (m.renderable operands).flatMap m.spell ∧
      ((m.rendered operands).2 = none ↔
        ∀ o ∈ operands, m.lacks o = false ∧ m.isOverlong o = false) := by
  induction operands with
  | nil =>
      simp [rendered, renderable]
  | cons operand operands ih =>
      have hfirst : ∀ name, operand ≠ .label name := fun name heq => h name (by simp [heq])
      obtain ⟨htext, hfault⟩ := ih fun name hmem => h name (List.mem_cons_of_mem _ hmem)
      rcases m.render_cases hfirst with ⟨hset, hshort, hrender⟩ | ⟨name, -, hunset, hrender⟩ |
        ⟨hset, hlong, hrender⟩
      · rw [renderable] at htext
        simp [rendered, renderable, hset, hshort, hrender, htext, hfault]
      · simp [rendered, renderable, hunset, hrender]
      · simp [rendered, renderable, hset, hlong, hrender]

theorem renderable_of_set {operands : List Operand}
    (h : ∀ o ∈ operands, m.lacks o = false ∧ m.isOverlong o = false) :
    m.renderable operands = operands := by
  rw [renderable, List.takeWhile_eq_self_iff]
  intro o ho
  simp [h o ho]

/-- Where nothing is too long, only unset registers have no text. -/
theorem renderable_eq_speakable {operands : List Operand}
    (h : (m.speakable operands).any m.isOverlong = false) :
    m.renderable operands = m.speakable operands := by
  induction operands with
  | nil =>
      rfl
  | cons operand operands ih =>
      cases hset : m.lacks operand with
      | true =>
          simp [renderable, speakable, hset]
      | false =>
          simp only [speakable, List.takeWhile_cons, hset, Bool.not_false, if_true, List.any_cons,
            Bool.or_eq_false_iff] at h
          have hrest := ih h.2
          rw [renderable, speakable] at hrest ⊢
          rw [List.takeWhile_cons_of_pos (by simp [hset, h.1]),
            List.takeWhile_cons_of_pos (by simp [hset]), hrest]

end Machine

/-- What an executed instruction says. -/
def Execution.message (e : Execution) : Text :=
  if e.instruction.opcode = .msg then e.instruction.operands.flatMap e.machine.spell else []

/-- What instructions say, one after the other. -/
def Execution.messages (es : List Execution) : Text :=
  es.flatMap message

namespace Instruction

variable {i : Instruction} {p : Program} {m after : Machine}

/-- What an instruction says before it fails. -/
def remainder (i : Instruction) (m : Machine) : Text :=
  if i.opcode = .msg then (m.speakable i.operands).flatMap m.spell else []

theorem action_of_msg (h : i.opcode = .msg) : i.action = .write i.operands := by
  simp [action, h]

/-- An executed instruction adds its message to the output, and reads no unset register
for it. -/
theorem Decoded.output_of_performs (hi : i.Decoded) (h : i.action.Performs p m after) :
    after.output = m.output ++ Execution.message ⟨m, i⟩ ∧
      (i.opcode = .msg → ∀ o ∈ i.operands, m.lacks o = false) := by
  by_cases hopcode : i.opcode = .msg
  · have hunlabelled := hi.unlabelled (.inl hopcode)
    rw [action_of_msg hopcode] at h
    cases h with
    | write hrendered =>
        obtain ⟨htext, hfault⟩ := Machine.rendered_eq_renderable hunlabelled
        have hset := hfault.mp hrendered
        refine ⟨?_, fun _ o ho => (hset o ho).1⟩
        show (m.append _).output = _
        rw [Machine.output_append, htext, Machine.renderable_of_set hset, Execution.message,
          if_pos hopcode]
  · refine ⟨?_, fun hmsg => absurd hmsg hopcode⟩
    rw [Execution.message, if_neg hopcode, List.append_nil]
    have hform := hi.form
    generalize i.action = a at h hform
    cases h with
    | write hrendered =>
        cases hform with
        | msg hmsg _ => exact absurd hmsg hopcode
    | _ => rfl

/-- A `MSG` that fails writes the operands before the one that it could not render. -/
theorem Decoded.machine_of_fault_msg (hi : i.Decoded) (hopcode : i.opcode = .msg) {fault : Fault}
    (h : (i.execute p m).fault = some fault) :
    (∃ o ∈ i.operands, m.lacks o = true ∨ m.isOverlong o = true) ∧
      (i.execute p m).machine = m.append ((m.renderable i.operands).flatMap m.spell) := by
  obtain ⟨htext, hset⟩ := @Machine.rendered_eq_renderable m i.operands (hi.unlabelled (.inl hopcode))
  rw [execute, action_of_msg hopcode, Action.perform, Machine.write_eq] at h ⊢
  cases hrendered : (m.rendered i.operands).2 with
  | none =>
      rw [hrendered] at h
      cases h
  | some raised =>
      rw [← htext]
      refine ⟨?_, rfl⟩
      by_contra hnever
      push Not at hnever
      have hnone := hset.mpr fun o ho => by simpa using hnever o ho
      rw [hrendered] at hnone
      cases hnone

/-- Any other instruction that fails changes nothing. -/
theorem Decoded.machine_of_fault_of_ne (hi : i.Decoded) (hopcode : i.opcode ≠ .msg)
    {fault : Fault} (h : (i.execute p m).fault = some fault) : (i.execute p m).machine = m := by
  rcases i.execute_cases p m with ⟨after, -, heq⟩ | hfails
  · rw [heq] at h
    cases h
  · have hform := hi.form
    generalize i.action = a at hfails hform
    generalize i.execute p m = attempt at hfails
    cases hfails with
    | untouched => rfl
    | written parts hrendered =>
        cases hform with
        | msg hmsg _ => exact absurd hmsg hopcode

/-- Where registers hold words, an instruction that fails writes what it says before, and
changes nothing else. -/
theorem Decoded.output_of_fault (hi : i.Decoded) (hm : m.HoldsWords) {fault : Fault}
    (h : (i.execute p m).fault = some fault) :
    (i.execute p m).machine.output = m.output ++ i.remainder m := by
  by_cases hopcode : i.opcode = .msg
  · have hshort := hi.not_isOverlong_of_words hm
    simp only [isOverlong, shows, hopcode] at hshort
    rw [(hi.machine_of_fault_msg hopcode h).2, Machine.output_append, remainder, if_pos hopcode,
      Machine.renderable_eq_speakable hshort]
  · rw [hi.machine_of_fault_of_ne hopcode h, remainder, if_neg hopcode, List.append_nil]

/-- Of the executed instructions, only `END` ends a program. -/
theorem Decoded.result_of_performs (hi : i.Decoded) (h : i.action.Performs p m after)
    (hnone : m.result = none) : after.result ≠ none ↔ i.opcode = .halt := by
  rcases h.result with ⟨haction, rfl⟩ | ⟨hsame, -⟩
  · simp [hi.opcode_of_halt haction, Machine.finish]
  · rw [hsame, hnone]
    refine ⟨fun hcontra => absurd rfl hcontra, ?_⟩
    intro hopcode
    have haction : i.action = .halt := by
      simp [action, hopcode]
    rw [haction] at h
    cases h
    rw [hnone] at hsame
    cases hsame

end Instruction

theorem Action.Fails.registers_eq {m : Machine} {a : Action} {attempt : Attempt}
    (h : a.Fails m attempt) : attempt.machine.registers = m.registers := by
  cases h <;> rfl

theorem Run.Sound.holdsWords_ready {r : Run} (h : r.Sound) : r.ready.HoldsWords :=
  fun name value hvalue => h.machine.registers name value (Table.mem_of_get?_eq_some hvalue)

/-- **A run comes upon the hazards of its instructions, and upon nothing else**: no integer in
it is too long to be shown. -/
theorem Run.Sound.fault_ready {r : Run} (h : r.Sound) {i : Instruction}
    (hi : r.program.instructionAt? r.ready.pc = some i) :
    (i.execute r.program r.ready).fault = i.firstHazard r.program r.ready := by
  have hdecoded := h.laidOut.decoded r.ready.pc i hi
  rw [Instruction.fault_execute hdecoded, hdecoded.not_isOverlong_of_words h.holdsWords_ready,
    if_neg Bool.false_ne_true]

/-- Every failure that a run takes note of is one of its program. -/
theorem Run.Sound.not_isForeign_of_fault {r : Run} (h : r.Sound) {i : Instruction}
    (hi : r.program.instructionAt? r.ready.pc = some i) {fault : Fault}
    (hfault : (i.execute r.program r.ready).fault = some fault) : ¬ fault.IsForeign := by
  rw [h.fault_ready hi] at hfault
  exact Instruction.not_isForeign_of_firstHazard hfault

theorem Instruction.remainder_congr {m m' : Machine} (h : m'.registers = m.registers)
    (i : Instruction) : i.remainder m' = i.remainder m := by
  have hspell : m'.spell = m.spell := by
    funext operand
    cases operand <;> simp [Machine.spell, Machine.value?, h]
  have hlacks : m'.lacks = m.lacks := by
    funext operand
    simp [Machine.lacks, h]
  simp only [remainder, Machine.speakable, hspell, hlacks]

namespace Run

/-- What the executed instructions have to do with the state of a run. -/
structure Tells (es : List Execution) (r : Run) : Prop where
  /-- Unless an instruction has failed, the output is what they said. -/
  output : (∀ failure, r.abort ≠ some (.failed failure)) →
    r.machine.output = Execution.messages es
  /-- The output of a failure ends with what the failing instruction said. -/
  failure : ∀ failure, r.abort = some (.failed failure) →
    ∃ i, r.program.instructionAt? r.machine.pc = some i ∧
      failure.output = Execution.messages es ++ i.remainder r.machine
  /-- No message reads an unset register. -/
  set : ∀ e ∈ es, e.instruction.opcode = .msg →
    ∀ o ∈ e.instruction.operands, e.machine.lacks o = false
  /-- A program that has ended itself has executed `END` last. -/
  ended : r.machine.result ≠ none →
    ∃ e, es.getLast? = some e ∧ e.instruction.opcode = .halt
  /-- A program that has executed `END` has ended itself. -/
  halted : (∃ e ∈ es, e.instruction.opcode = .halt) → r.machine.result ≠ none

namespace Tells

variable {es : List Execution} {r after : Run}

theorem initial (p : Program) : Tells [] (start p) where
  output _ := rfl
  failure _ h := by cases h
  set := by simp
  ended h := absurd rfl h
  halted := by simp

theorem output_of_not_isOver (h : Tells es r) (hover : r.isOver = false) :
    r.machine.output = Execution.messages es := by
  apply h.output
  simp [abort_of_not_isOver hover]

theorem executed (h : Tells es r) (hsound : r.Sound) (hover : r.isOver = false)
    {i : Instruction} {machine : Machine} {history : List Entry}
    (hi : r.program.instructionAt? r.ready.pc = some i)
    (hperforms : i.action.Performs r.program r.ready machine) :
    Tells (es ++ [⟨r.ready, i⟩]) { r with machine := machine.tick, history := history } := by
  have hdecoded := hsound.laidOut.decoded r.ready.pc i hi
  have habort := abort_of_not_isOver hover
  have hnone : r.ready.result = none := hsound.result_of_not_isOver hover
  obtain ⟨houtput, hset⟩ := hdecoded.output_of_performs hperforms
  have hhalt := hdecoded.result_of_performs hperforms hnone
  refine ⟨?_, ?_, ?_, ?_, ?_⟩
  · intro _
    show machine.output = _
    have hbefore : r.ready.output = Execution.messages es := h.output_of_not_isOver hover
    rw [houtput, hbefore]
    simp [Execution.messages]
  · simp [habort]
  · intro e he
    rcases List.mem_append.mp he with he | he
    · exact h.set e he
    · rw [List.mem_singleton.mp he]
      exact hset
  · intro hresult
    exact ⟨⟨r.ready, i⟩, by simp, hhalt.mp hresult⟩
  · rintro ⟨e, he, hopcode⟩
    rcases List.mem_append.mp he with he | he
    · exact absurd hnone (h.halted ⟨e, he, hopcode⟩)
    · rw [List.mem_singleton.mp he] at hopcode
      exact hhalt.mpr hopcode

theorem stalls (h : Tells es r) (hsound : r.Sound) (hstalls : r.Stalls after) :
    Tells es after := by
  cases hstalls with
  | ended _ =>
      exact h
  | ranOff hover hi =>
      exact ⟨fun _ => h.output_of_not_isOver hover, by simp [abort_of_not_isOver hover],
        h.set, h.ended, h.halted⟩
  | exhausted hover hi =>
      refine ⟨fun _ => h.output_of_not_isOver hover, ?_, h.set, h.ended, h.halted⟩
      intro failure hfailure
      cases Abort.ofSpent_eq_some hfailure
  | @failed i fault history hover hi hfails hfault =>
      obtain ⟨hpc, hresult⟩ := hfails.same
      have hready : r.ready.result = r.machine.result := rfl
      refine ⟨?_, ?_, h.set, ?_, ?_⟩
      · intro hcontra
        exact absurd rfl (hcontra _)
      · rintro _ ⟨⟩
        refine ⟨i, ?_, ?_⟩
        · show r.program.instructionAt? (i.execute r.program r.ready).machine.pc = some i
          rw [hpc]
          exact hi
        · have hbefore : r.ready.output = Execution.messages es := h.output_of_not_isOver hover
          have hdecoded := hsound.laidOut.decoded r.ready.pc i hi
          show (i.execute r.program r.ready).machine.output = _
          rw [hdecoded.output_of_fault hsound.holdsWords_ready hfault, hbefore,
            Instruction.remainder_congr hfails.registers_eq i]
      · rw [hresult, hready]
        exact h.ended
      · rw [hresult, hready]
        exact h.halted

/-- **One step keeps what the executed instructions tell of a run.** -/
theorem step (h : Tells es r) (hsound : r.Sound) (limit : Option Int) (recording : Bool) :
    Tells (es ++ (r.execution? limit recording).toList) (r.next limit recording) := by
  rcases step_cases limit recording r with
    ⟨i, after, hexecution, hover, hi, hperforms, hnext⟩ | ⟨hnone, hstalls⟩
  · rw [hexecution, hnext]
    exact h.executed hsound hover hi hperforms
  · rw [hnone, Option.toList_none, List.append_nil]
    exact h.stalls hsound hstalls

/-- A run that is over has a result exactly if `END` was executed last, and the result is
what the executed instructions said. -/
theorem outcome_finished_iff (h : Tells es r) (hsound : r.Sound) (text : Text) :
    r.outcome = .finished text ↔
      (∃ e, es.getLast? = some e ∧ e.instruction.opcode = .halt) ∧
        text = Execution.messages es := by
  have hresult : ∀ found, r.machine.result = some found →
      r.abort = none ∧ found = Execution.messages es := by
    intro found hfound
    have habort : r.abort = none := by
      rw [Option.eq_none_iff_forall_ne_some]
      intro cause hcause
      rw [(hsound.aborted cause hcause).1] at hfound
      cases hfound
    refine ⟨habort, ?_⟩
    rw [(hsound.ended found hfound).1]
    apply h.output
    simp [habort]
  rw [hsound.outcome_eq_finished_iff]
  constructor
  · rintro ⟨-, htext⟩
    exact ⟨h.ended (by simp [htext]), (hresult text htext).2⟩
  · rintro ⟨⟨e, hlast, hopcode⟩, rfl⟩
    have hsome := h.halted ⟨e, List.mem_of_getLast? hlast, hopcode⟩
    obtain ⟨found, hfound⟩ := Option.ne_none_iff_exists'.mp hsome
    obtain ⟨habort, rfl⟩ := hresult found hfound
    exact ⟨habort, hfound⟩

/-- A run has run off exactly if it stands behind the last line without having executed
`END`. -/
theorem outcome_ranOff_iff (h : Tells es r) (hsound : r.Sound) :
    r.outcome = .ranOff ↔
      r.program.size ≤ r.machine.pc ∧ ∀ e ∈ es, e.instruction.opcode ≠ .halt := by
  constructor
  · intro houtcome
    rcases hsound.outcome_cases with ⟨cause, hcase, -⟩ | ⟨output, hcase, -⟩ |
      ⟨-, habort, hresult, hover⟩ | ⟨hcase, -⟩
    · cases hcase.symm.trans houtcome
    · cases hcase.symm.trans houtcome
    · have hhalted := hsound.machine.halted
      rw [hresult] at hhalted
      constructor
      · simpa [isOver, habort, Machine.finished, hhalted] using hover
      · intro e he hopcode
        exact h.halted ⟨e, he, hopcode⟩ hresult
    · cases hcase.symm.trans houtcome
  · rintro ⟨hpc, hnever⟩
    have habort : r.abort = none := by
      rw [Option.eq_none_iff_forall_ne_some]
      intro cause hcause
      obtain ⟨-, i, hi, -⟩ := hsound.aborted cause hcause
      have hlt := Machine.lt_size_of_instructionAt? hi
      omega
    have hresult : r.machine.result = none := by
      by_contra hresult
      obtain ⟨e, hlast, hopcode⟩ := h.ended hresult
      exact hnever e (List.mem_of_getLast? hlast) hopcode
    rw [outcome_of_abort_eq_none habort, isOver_iff.mpr (.inr (.inr hpc)), hresult]
    rfl

end Tells
end Run

namespace Program

variable {p : Program}

theorem LaidOut.tells_course (h : p.LaidOut) (s : Schedule) (n : Nat) :
    Run.Tells (p.executions s n) (p.course s n) := by
  induction n with
  | zero =>
      exact .initial p
  | succ n ih =>
      rw [executions_succ, course_succ]
      exact ih.step (h.sound_course s n) (s.limit n) (s.recording n)

/-- **The output law.**  After any number of steps, the output is what the executed `MSG`
instructions said, and none of them read an unset register; a failure adds what the
failing instruction said.  A whole run has a result exactly if it executed `END` last,
and the result is what was said; it has run off exactly if it passed the last line
without `END`. -/
theorem output_eq_messages {source : Text} {p : Program} (h : ofSource source = .ok p) :
    (∀ s n, (∀ failure, (p.course s n).abort ≠ some (.failed failure)) →
      (p.course s n).machine.output = Execution.messages (p.executions s n)) ∧
    (∀ s n, ∀ e ∈ p.executions s n, e.instruction.opcode = .msg →
      ∀ o ∈ e.instruction.operands, e.machine.lacks o = false) ∧
    (∀ s n failure, (p.course s n).abort = some (.failed failure) →
      ∃ line i, failure.line = some line ∧ p.instructionAt? line = some i ∧
        failure.output =
          Execution.messages (p.executions s n) ++ i.remainder (p.course s n).machine) ∧
    (∀ limit recording r, p.Ends limit recording r →
      ∃ n, p.course (.constant limit recording) n = r ∧
        (∀ text, r.outcome = .finished text ↔
          (∃ e, (p.executions (.constant limit recording) n).getLast? = some e ∧
            e.instruction.opcode = .halt) ∧
          text = Execution.messages (p.executions (.constant limit recording) n)) ∧
        (r.outcome = .ranOff ↔
          p.size ≤ r.machine.pc ∧
            ∀ e ∈ p.executions (.constant limit recording) n, e.instruction.opcode ≠ .halt)) ∧
    ((∀ i ∈ p.instructions, i.opcode ≠ .halt) →
      ∀ limit recording r, p.Ends limit recording r → ∀ text, r.outcome ≠ .finished text) := by
  have hp := laidOut_ofSource h
  refine ⟨fun s n => (hp.tells_course s n).output, fun s n => (hp.tells_course s n).set,
    ?_, ?_, ?_⟩
  · intro s n failure habort
    have hprogram := p.program_course s n
    obtain ⟨i, hi, houtput⟩ := (hp.tells_course s n).failure failure habort
    obtain ⟨-, _, -, hplace⟩ := (hp.sound_course s n).aborted _ habort
    obtain ⟨hline, -, -⟩ := hplace failure rfl
    rw [hprogram] at hi
    exact ⟨_, i, hline, hi, houtput⟩
  · intro limit recording r hr
    obtain ⟨n, rfl, -⟩ := hp.exists_course hr
    have htells := hp.tells_course (.constant limit recording) n
    have hsound := hp.sound_course (.constant limit recording) n
    have hranOff := htells.outcome_ranOff_iff hsound
    rw [program_course] at hranOff
    exact ⟨n, rfl, htells.outcome_finished_iff hsound, hranOff⟩
  · intro hnever limit recording r hr text houtcome
    obtain ⟨n, rfl, -⟩ := hp.exists_course hr
    have hresult := ((hp.sound_course _ n).outcome_eq_finished_iff.mp houtcome).2
    obtain ⟨-, i, hi, hopcode⟩ := (hp.sound_course _ n).ended text hresult
    rw [program_course] at hi
    exact hnever i (List.mem_filterMap.mpr ⟨_, mem_of_instructionAt? hi, rfl⟩) hopcode

/-- A register that changes between two messages, and a message that fails halfway. -/
theorem output_eq_messages_halfway :
    ∃ p, ofSource "mov a,-7\nmsg 'a=',a\ninc a\nmsg ' ',a,'!',b,a\nend".toList = .ok p ∧
      (p.course (.constant none false) 3).machine.output = "a=-7".toList ∧
      Execution.messages (p.executions (.constant none false) 3) = "a=-7".toList ∧
      ∃ failure, (p.course (.constant none false) 4).abort = some (.failed failure) ∧
        failure.line = some 3 ∧ failure.output = "a=-7 -6!".toList := by
  obtain ⟨p, hp⟩ : ∃ p, p =
      ({ lines :=
          [.instruction { opcode := .mov, operands := [.register ['a'], .integer (-7)],
                          token := "mov".toList, text := "mov a,-7".toList },
            .instruction { opcode := .msg, operands := [.text ['a', '='], .register ['a']],
                           token := "msg".toList, text := "msg 'a=',a".toList },
            .instruction { opcode := .inc, operands := [.register ['a']],
                           token := "inc".toList, text := "inc a".toList },
            .instruction { opcode := .msg,
                           operands := [.text [' '], .register ['a'], .text ['!'],
                             .register ['b'], .register ['a']],
                           token := "msg".toList, text := "msg ' ',a,'!',b,a".toList },
            .instruction { opcode := .halt, token := "end".toList, text := "end".toList }] } :
        Program) := ⟨_, rfl⟩
  have hsource :
      ofSource "mov a,-7\nmsg 'a=',a\ninc a\nmsg ' ',a,'!',b,a\nend".toList = .ok p := by
    subst hp
    decide +kernel
  obtain ⟨houtput, -, hfailure, -, -⟩ := output_eq_messages hsource
  have hrunning : (p.course (.constant none false) 3).abort = none := by
    subst hp
    decide +kernel
  have hmessages :
      Execution.messages (p.executions (.constant none false) 3) = "a=-7".toList := by
    subst hp
    decide +kernel
  have habort : (p.course (.constant none false) 4).abort =
      some (.failed { fault := .unsetRegister ['b'], line := some 3,
                      source := some "msg ' ',a,'!',b,a".toList,
                      output := "a=-7 -6!".toList }) := by
    subst hp
    decide +kernel
  refine ⟨p, hsource, ?_, hmessages, _, habort, rfl, ?_⟩
  · rw [houtput _ _ (by simp [hrunning]), hmessages]
  · obtain ⟨line, i, hline, hi, hsaid⟩ := hfailure _ _ _ habort
    cases hline
    subst hp
    cases hi
    rw [hsaid]
    decide +kernel

end Program
end RegisterMachine
