import Mathlib.Data.List.Intervals
import RegisterMachine.Proofs.Correspondence
import RegisterMachine.Proofs.Execution
import RegisterMachine.Proofs.Skipping

/-!
# Lines that are never reached

A run looks at the lines that it visits, at the labels that its instructions name, and at
the number of lines if it gets to the end of them.  A program that has the same to show
there is run in the same way, whatever its other lines hold.

**Contents.**
* `Run.attempt?`: the instruction that a step attempts.
* `Run.visits`, `Program.visited`: the lines that a step and a number of steps look at.
* `Run.seeks?`, `Program.sought`: the labels that they look up.
* `Run.transfer`: the same run of another program.
* `Run.Serves`, `Program.Serves`: a program that has the same to show to a step or to all
  steps.

**Results.**
* `Instruction.execute_congr`: an instruction looks at the label that it names only.
* `Run.Serves.next_transfer`: a step of the other program is the same.
* `Program.Serves.course_eq`: so are all steps.
* `Program.ends_of_serves`: the runs end alike, and no line fails that is not reached.
-/

namespace RegisterMachine

/-- The effect of an action depends on a program only where it locates its target. -/
theorem Action.perform_congr {p q : Program} {a : Action}
    (h : ∀ target, a.target? = some target → q.locate target = p.locate target) (m : Machine) :
    a.perform q m = a.perform p m := by
  cases a with
  | jump target =>
      simp only [perform, h target rfl]
  | branch relation target =>
      simp only [perform, Machine.branch, h target rfl]
  | call target =>
      simp only [perform, Machine.call, h target rfl]
  | _ => rfl

/-- An instruction does the same in programs that resolve the label it names alike. -/
theorem Instruction.execute_congr {p q : Program} {i : Instruction} (hi : i.Decoded)
    (h : ∀ name, i.target? = some name → q.labels.get? name = p.labels.get? name)
    (m : Machine) : i.execute q m = i.execute p m := by
  have hlocate : ∀ target, i.action.target? = some target →
      q.locate target = p.locate target := by
    intro target htarget
    obtain ⟨name, rfl, hname⟩ := hi.target?_eq htarget
    rw [Action.locate_label, Action.locate_label, h name hname]
  rw [execute, execute, Action.perform_congr hlocate]

namespace Run

variable {q : Program} {r : Run} {limit : Option Int} {recording : Bool}

/-- The lines that the next step looks at: those that it skips, and the one that it stops
at, either to attempt its instruction or because the limit is spent. -/
def visits (r : Run) : List Nat :=
  if r.isOver then []
  else List.Ico r.machine.pc.toNat (min (r.ready.pc.toNat + 1) r.program.size)

/-- The instruction that the next step attempts. -/
def attempt? (limit : Option Int) (r : Run) : Option Instruction :=
  if r.isOver || (spent? limit r.machine.cycles).isSome then none
  else r.program.instructionAt? r.ready.pc

/-- The label that the next step looks up. -/
def seeks? (limit : Option Int) (r : Run) : Option Text :=
  (r.attempt? limit).bind Instruction.target?

/-- The same run of another program. -/
def transfer (q : Program) (r : Run) : Run :=
  { r with program := q }

/-- Another program that has the same to show to the next step of a run. -/
structure Serves (limit : Option Int) (recording : Bool) (q : Program) (r : Run) : Prop where
  lines : ∀ n ∈ r.visits, q.lines[n]? = r.program.lines[n]?
  labels : ∀ name, r.seeks? limit = some name →
    q.labels.get? name = r.program.labels.get? name
  /-- The number of lines is looked at once the run gets behind the last one. -/
  size : r.program.size ≤ (r.next limit recording).machine.pc → q.size = r.program.size

theorem visits_of_not_isOver (hover : r.isOver = false) :
    r.visits = List.Ico r.machine.pc.toNat (min (r.ready.pc.toNat + 1) r.program.size) := by
  rw [visits, hover, if_neg Bool.false_ne_true]

/-- The visited lines are those of the program from the one at hand to the next one with an
instruction. -/
theorem mem_visits (hover : r.isOver = false) (hnonneg : 0 ≤ r.machine.pc) {n : Nat} :
    n ∈ r.visits ↔ r.machine.pc ≤ n ∧ (n : Int) ≤ r.ready.pc ∧ n < r.program.size := by
  have hle : r.machine.pc ≤ r.ready.pc := Machine.pc_le_settle r.program r.machine
  rw [visits_of_not_isOver hover, List.Ico.mem]
  omega

theorem attempt?_of_not_spent (hover : r.isOver = false)
    (hspent : spent? limit r.machine.cycles = none) :
    r.attempt? limit = r.program.instructionAt? r.ready.pc := by
  rw [attempt?, hover, hspent]
  rfl

theorem pc_lt_of_not_isOver (hover : r.isOver = false) : r.machine.pc < r.program.size := by
  have hfinished := not_finished_of_not_isOver hover
  simp only [Machine.finished, Bool.or_eq_false_iff, decide_eq_false_iff_not] at hfinished
  omega

theorem lt_size_of_mem_visits {n : Nat} (h : n ∈ r.visits) : n < r.program.size := by
  unfold visits at h
  split at h
  · cases h
  · have hlt := (List.Ico.mem.mp h).2
    omega

/-- A failure of the next step: that of the instruction that it attempts. -/
structure Raises (failure : Failure) (i : Instruction) (line : Nat) (r : Run) : Prop where
  visited : line ∈ r.visits
  instruction : r.program.instructionAt? line = some i
  line : failure.line = some (line : Int)
  source : failure.source = some i.text
  fault : (i.execute r.program r.ready).fault = some failure.fault

theorem Sound.exists_raises (h : r.Sound) (hover : r.isOver = false) {failure : Failure}
    (hfailed : (r.next limit recording).abort = some (.failed failure)) :
    ∃ i line, r.Raises failure i line := by
  have habort := abort_of_not_isOver hover
  have hready : 0 ≤ r.ready.pc := h.machine.settle.pc_nonneg
  rcases step_cases limit recording r with ⟨i, after, -, -, -, -, hnext⟩ | ⟨-, hstalls⟩
  · rw [hnext] at hfailed
    cases habort.symm.trans hfailed
  · generalize r.next limit recording = after at hstalls hfailed
    cases hstalls with
    | ended _ =>
        cases habort.symm.trans hfailed
    | ranOff _ _ =>
        cases habort.symm.trans hfailed
    | exhausted _ _ =>
        cases Abort.ofSpent_eq_some hfailed
    | @failed i fault _ _ hi _ hfault =>
        cases hfailed
        obtain ⟨line, hline⟩ := Int.eq_ofNat_of_zero_le hready
        have hlt := Machine.lt_size_of_instructionAt? hi
        have hle : r.machine.pc ≤ r.ready.pc := Machine.pc_le_settle r.program r.machine
        refine ⟨i, line, ?_, ?_, congrArg some hline, rfl, hfault⟩
        · rw [mem_visits hover h.machine.pc_nonneg]
          omega
        · rw [← hline]
          exact hi

namespace Serves

/-- A visited line is one of both programs. -/
theorem lt_size (h : r.Serves limit recording q) {n : Nat} (hn : n ∈ r.visits) : n < q.size := by
  have hline := h.lines n hn
  rw [List.getElem?_eq_getElem (lt_size_of_mem_visits hn)] at hline
  obtain ⟨hlt, -⟩ := List.getElem?_eq_some_iff.mp hline
  exact hlt

/-- A run that gets behind the last line stays there. -/
theorem size_eq_of_size_le (h : r.Serves limit recording q)
    (hsize : r.program.size ≤ r.machine.pc) : q.size = r.program.size := by
  apply h.size
  rw [next_of_isOver (isOver_iff.mpr (.inr (.inr hsize)))]
  exact hsize

/-- A run that finds no more instruction gets behind the last line. -/
theorem size_eq_of_none (h : r.Serves limit recording q) (hsound : r.Sound)
    (hover : r.isOver = false) (hi : r.program.instructionAt? r.ready.pc = none) :
    q.size = r.program.size := by
  apply h.size
  rw [next_of_none hover hi]
  exact (Machine.instructionAt?_settle hsound.machine.pc_nonneg).mp hi

/-- The line that a step stops at is the same, or there is none in both programs. -/
theorem instructionAt?_eq (h : r.Serves limit recording q) (hsound : r.Sound)
    (hover : r.isOver = false) :
    q.instructionAt? r.ready.pc = r.program.instructionAt? r.ready.pc := by
  have hnonneg : 0 ≤ r.machine.pc := hsound.machine.pc_nonneg
  have hle : r.machine.pc ≤ r.ready.pc := Machine.pc_le_settle r.program r.machine
  cases hi : r.program.instructionAt? r.ready.pc with
  | none =>
      have hsize := h.size_eq_of_none hsound hover hi
      have hend := (Machine.instructionAt?_settle hnonneg).mp hi
      cases hi' : q.instructionAt? r.ready.pc with
      | none =>
          rfl
      | some i =>
          have hlt : r.ready.pc < q.size := Machine.lt_size_of_instructionAt? hi'
          rw [ready] at hlt
          omega
  | some i =>
      have hlt := Machine.lt_size_of_instructionAt? hi
      have hvisited : r.ready.pc.toNat ∈ r.visits := by
        rw [mem_visits hover hnonneg]
        omega
      rw [← hi, Program.instructionAt?, h.lines _ hvisited, Program.instructionAt?]

/-- The same lines are skipped. -/
theorem ready_transfer (h : r.Serves limit recording q) (hsound : r.Sound)
    (hover : r.isOver = false) : (r.transfer q).ready = r.ready := by
  have hnonneg : 0 ≤ r.machine.pc := hsound.machine.pc_nonneg
  have hskips : r.machine.Skips r.program r.ready := Machine.skips_settle hnonneg
  apply Machine.settle_eq hnonneg
  · apply hskips.congr
    intro n hge hlt
    apply h.lines
    obtain ⟨line, hline, -⟩ := hskips.idle n hge hlt
    obtain ⟨hsize, -⟩ := List.getElem?_eq_some_iff.mp hline
    rw [mem_visits hover hnonneg]
    exact ⟨hge, Int.le_of_lt hlt, hsize⟩
  · intro hnone
    have hi : r.program.instructionAt? r.ready.pc = none := by
      rw [← h.instructionAt?_eq hsound hover]
      exact hnone
    have hend : r.program.size ≤ r.ready.pc := (Machine.instructionAt?_settle hnonneg).mp hi
    have hsize := h.size_eq_of_none hsound hover hi
    show (q.size : Int) ≤ r.ready.pc
    omega

theorem isOver_transfer (h : r.Serves limit recording q) (hsound : r.Sound) :
    (r.transfer q).isOver = r.isOver := by
  cases hover : r.isOver with
  | true =>
      rw [isOver_iff] at hover ⊢
      rcases hover with habort | hhalted | hend
      · exact .inl habort
      · exact .inr (.inl hhalted)
      · have hsize := h.size_eq_of_size_le hend
        exact .inr (.inr (by rw [transfer, hsize]; exact hend))
  | false =>
      have hnonneg : 0 ≤ r.machine.pc := hsound.machine.pc_nonneg
      have hle : r.machine.pc ≤ r.ready.pc := Machine.pc_le_settle r.program r.machine
      have hlt := pc_lt_of_not_isOver hover
      have hvisited : r.machine.pc.toNat ∈ r.visits := by
        rw [mem_visits hover hnonneg]
        omega
      rw [← hover, Bool.eq_iff_iff, isOver_iff, isOver_iff]
      have hlt' : r.machine.pc < q.size := by
        have hsize := h.lt_size hvisited
        omega
      simp only [transfer, Int.not_le.mpr hlt, Int.not_le.mpr hlt']

theorem outcome_transfer (h : r.Serves limit recording q) (hsound : r.Sound) :
    (r.transfer q).outcome = r.outcome := by
  cases habort : r.abort with
  | some cause =>
      rw [outcome_eq_aborted_iff.mpr habort]
      exact outcome_eq_aborted_iff.mpr habort
  | none =>
      have habort' : (r.transfer q).abort = none := habort
      rw [outcome_of_abort_eq_none habort, outcome_of_abort_eq_none habort',
        h.isOver_transfer hsound]
      rfl

theorem visits_transfer (h : r.Serves limit recording q) (hsound : r.Sound) :
    (r.transfer q).visits = r.visits := by
  have hover' := h.isOver_transfer hsound
  cases hover : r.isOver with
  | true =>
      rw [hover] at hover'
      rw [visits, visits, hover, hover', if_pos rfl, if_pos rfl]
  | false =>
      rw [hover] at hover'
      have hi := h.instructionAt?_eq hsound hover
      rw [visits_of_not_isOver hover', visits_of_not_isOver hover, h.ready_transfer hsound hover]
      show List.Ico r.machine.pc.toNat (min _ q.size) = _
      cases hi' : r.program.instructionAt? r.ready.pc with
      | none =>
          rw [h.size_eq_of_none hsound hover hi']
      | some i =>
          -- the line that the step stops at is one of both programs
          have hnonneg : 0 ≤ r.ready.pc := hsound.machine.settle.pc_nonneg
          rw [hi'] at hi
          have hlt := Machine.lt_size_of_instructionAt? hi
          have hlt' := Machine.lt_size_of_instructionAt? hi'
          rw [Nat.min_eq_left (by omega), Nat.min_eq_left (by omega)]

/-- The instruction at hand does the same in the other program. -/
theorem execute_eq (h : r.Serves limit recording q) (hsound : r.Sound) {i : Instruction}
    (hover : r.isOver = false) (hi : r.program.instructionAt? r.ready.pc = some i)
    (hspent : spent? limit r.machine.cycles = none) :
    i.execute q r.ready = i.execute r.program r.ready := by
  have hattempt := (attempt?_of_not_spent hover hspent).trans hi
  apply Instruction.execute_congr (hsound.laidOut.decoded _ i hi)
  intro name hname
  apply h.labels
  rw [seeks?, hattempt]
  exact hname

/-- **A step of the other program is the same.** -/
theorem next_transfer (h : r.Serves limit recording q) (hsound : r.Sound) :
    (r.transfer q).next limit recording = (r.next limit recording).transfer q := by
  have hover' := h.isOver_transfer hsound
  cases hover : r.isOver with
  | true =>
      rw [hover] at hover'
      rw [next_of_isOver hover, next_of_isOver hover']
  | false =>
      rw [hover] at hover'
      have hready := h.ready_transfer hsound hover
      have hi' : (r.transfer q).program.instructionAt? (r.transfer q).ready.pc =
          r.program.instructionAt? r.ready.pc := by
        rw [hready]
        exact h.instructionAt?_eq hsound hover
      cases hi : r.program.instructionAt? r.ready.pc with
      | none =>
          rw [hi] at hi'
          rw [next_of_none hover hi, next_of_none hover' hi', hready]
          rfl
      | some i =>
          rw [hi] at hi'
          cases hspent : spent? limit r.machine.cycles with
          | some most =>
              rw [next_of_spent hover hi hspent, next_of_spent hover' hi' hspent, hready]
              rfl
          | none =>
              have hexecute : i.execute (r.transfer q).program r.ready =
                  i.execute r.program r.ready :=
                h.execute_eq hsound hover hi hspent
              rw [next_of_attempt hover hi hspent, next_of_attempt hover' hi' hspent, recorded,
                hready, hexecute]
              rfl

end Serves
end Run

namespace Program

variable {p q : Program} {s : Schedule} {n : Nat}

/-- The lines that a number of steps look at, in their order. -/
def visited (p : Program) (s : Schedule) (n : Nat) : List Nat :=
  (List.range n).flatMap fun k => (p.course s k).visits

/-- The labels that a number of steps look up, in their order. -/
def sought (p : Program) (s : Schedule) (n : Nat) : List Text :=
  (List.range n).filterMap fun k => (p.course s k).seeks? (s.limit k)

/-- A program that has the same to show to all steps of a run of the given one. -/
structure Serves (p : Program) (s : Schedule) (q : Program) : Prop where
  lines : ∀ n, ∀ line ∈ p.visited s n, q.lines[line]? = p.lines[line]?
  labels : ∀ n, ∀ name ∈ p.sought s n, q.labels.get? name = p.labels.get? name
  size : ∀ n, p.size ≤ (p.course s n).machine.pc → q.size = p.size

theorem mem_visited {line : Nat} :
    line ∈ p.visited s n ↔ ∃ k < n, line ∈ (p.course s k).visits := by
  simp only [visited, List.mem_flatMap, List.mem_range]

theorem mem_sought {name : Text} :
    name ∈ p.sought s n ↔ ∃ k < n, (p.course s k).seeks? (s.limit k) = some name := by
  simp only [sought, List.mem_filterMap, List.mem_range]

namespace Serves

/-- What serves all steps serves each of them. -/
theorem serves_course (h : p.Serves s q) (n : Nat) :
    (p.course s n).Serves (s.limit n) (s.recording n) q where
  lines line hline := by
    rw [program_course]
    exact h.lines (n + 1) line (mem_visited.mpr ⟨n, Nat.lt_succ_self n, hline⟩)
  labels name hname := by
    rw [program_course]
    exact h.labels (n + 1) name (mem_sought.mpr ⟨n, Nat.lt_succ_self n, hname⟩)
  size hsize := by
    rw [program_course, ← course_succ] at hsize
    rw [program_course]
    exact h.size (n + 1) hsize

/-- **All steps of the other program are the same.** -/
theorem course_eq (h : p.Serves s q) (hp : p.LaidOut) (n : Nat) :
    q.course s n = (p.course s n).transfer q := by
  induction n with
  | zero =>
      rfl
  | succ n ih =>
      rw [course_succ, course_succ, ih]
      exact (h.serves_course n).next_transfer (hp.sound_course s n)

/-- The other program comes to rest after as many steps. -/
theorem course_succ_eq_iff (h : p.Serves s q) (hp : p.LaidOut) (n : Nat) :
    q.course s (n + 1) = q.course s n ↔ p.course s (n + 1) = p.course s n := by
  rw [h.course_eq hp, h.course_eq hp]
  constructor
  · intro hsame
    have hback := congrArg (Run.transfer p) hsame
    have hprogram : ∀ k, Run.transfer p ((p.course s k).transfer q) = p.course s k := by
      intro k
      have hk := p.program_course s k
      generalize p.course s k = r at hk
      cases hk
      rfl
    rwa [hprogram, hprogram] at hback
  · exact congrArg (Run.transfer q)

theorem visited_eq (h : p.Serves s q) (hp : p.LaidOut) (n : Nat) :
    q.visited s n = p.visited s n := by
  have hvisits : ∀ k, (q.course s k).visits = (p.course s k).visits := by
    intro k
    rw [h.course_eq hp]
    exact (h.serves_course k).visits_transfer (hp.sound_course s k)
  simp only [visited, hvisits]

end Serves

/-- A failure is that of an instruction on a line that was visited. -/
theorem LaidOut.exists_raises (h : p.LaidOut) {failure : Failure}
    (hfailed : (p.course s n).abort = some (.failed failure)) :
    ∃ k i line, (p.course s k).Raises failure i line := by
  induction n with
  | zero =>
      cases hfailed
  | succ n ih =>
      rw [course_succ] at hfailed
      cases hover : (p.course s n).isOver with
      | true =>
          rw [Run.next_of_isOver hover] at hfailed
          exact ih hfailed
      | false =>
          exact ⟨n, (h.sound_course s n).exists_raises hover hfailed⟩

theorem course_of_isOver (hover : (p.course s n).isOver = true) {k : Nat} (hle : n ≤ k) :
    p.course s k = p.course s n := by
  induction hle with
  | refl =>
      rfl
  | step _ ih =>
      rw [course_succ, ih, Run.next_of_isOver hover]

/-- It is enough to look at a run up to its end. -/
theorem Serves.of_isOver (hover : (p.course s n).isOver = true)
    (hlines : ∀ line ∈ p.visited s n, q.lines[line]? = p.lines[line]?)
    (hlabels : ∀ name ∈ p.sought s n, q.labels.get? name = p.labels.get? name)
    (hsize : p.size ≤ (p.course s n).machine.pc → q.size = p.size) : p.Serves s q where
  lines k line hline := by
    obtain ⟨j, -, hvisits⟩ := mem_visited.mp hline
    rcases Nat.lt_or_ge j n with hlt | hge
    · exact hlines line (mem_visited.mpr ⟨j, hlt, hvisits⟩)
    · rw [course_of_isOver hover hge, Run.visits, hover] at hvisits
      cases hvisits
  labels k name hname := by
    obtain ⟨j, -, hseeks⟩ := mem_sought.mp hname
    rcases Nat.lt_or_ge j n with hlt | hge
    · exact hlabels name (mem_sought.mpr ⟨j, hlt, hseeks⟩)
    · rw [course_of_isOver hover hge, Run.seeks?, Run.attempt?, hover] at hseeks
      cases hseeks
  size k hend := by
    apply hsize
    rcases Nat.le_total k n with hle | hge
    · have hover' : (p.course s k).isOver = true := by
        rw [Run.isOver_iff, program_course]
        exact .inr (.inr hend)
      rw [course_of_isOver hover' hle]
      exact hend
    · rw [← course_of_isOver hover hge]
      exact hend

/-- **Lines that are never reached do not matter.**  A program that has the same lines
where the run of another one looks, resolves the labels that it looks up alike, and has as
many lines if the run gets behind the last one, ends if and only if the other one ends, in
the same way and after the same visits.  A failure is that of an instruction on a line that
was visited, so no other line can fail. -/
theorem ends_of_serves {source source' : Text} {p q : Program} (hp : ofSource source = .ok p)
    (hq : ofSource source' = .ok q) {limit : Option Int} {recording : Bool}
    (h : p.Serves (.constant limit recording) q) :
    (∀ n, q.visited (.constant limit recording) n = p.visited (.constant limit recording) n) ∧
    (∀ r, p.Ends limit recording r → ∃ r', q.Ends limit recording r' ∧
      r'.outcome = r.outcome ∧ r'.machine = r.machine ∧ r'.trace = r.trace) ∧
    (∀ r', q.Ends limit recording r' → ∃ r, p.Ends limit recording r ∧
      r'.outcome = r.outcome ∧ r'.machine = r.machine ∧ r'.trace = r.trace) ∧
    (∀ r failure, p.Ends limit recording r → r.outcome = .aborted (.failed failure) →
      ∃ n i line, (p.course (.constant limit recording) n).Raises failure i line) := by
  have hlaid := laidOut_ofSource hp
  have hlaid' := laidOut_ofSource hq
  have hsame : ∀ n, (q.course (.constant limit recording) n).outcome =
        (p.course (.constant limit recording) n).outcome ∧
      (q.course (.constant limit recording) n).machine =
        (p.course (.constant limit recording) n).machine ∧
      (q.course (.constant limit recording) n).trace =
        (p.course (.constant limit recording) n).trace := by
    intro n
    rw [h.course_eq hlaid]
    exact ⟨(h.serves_course n).outcome_transfer (hlaid.sound_course _ n), rfl, rfl⟩
  refine ⟨h.visited_eq hlaid, ?_, ?_, ?_⟩
  · intro r hends
    obtain ⟨n, rfl, hrest⟩ := hlaid.ends_iff_course.mp hends
    have hrest' := (h.course_succ_eq_iff hlaid n).mpr ((p.course_succ _ n).trans hrest)
    exact ⟨_, hlaid'.ends_iff_course.mpr ⟨n, rfl, (q.course_succ _ n).symm.trans hrest'⟩, hsame n⟩
  · intro r' hends
    obtain ⟨n, rfl, hrest'⟩ := hlaid'.ends_iff_course.mp hends
    have hrest := (h.course_succ_eq_iff hlaid n).mp ((q.course_succ _ n).trans hrest')
    exact ⟨_, hlaid.ends_iff_course.mpr ⟨n, rfl, (p.course_succ _ n).symm.trans hrest⟩, hsame n⟩
  · intro r failure hends houtcome
    obtain ⟨n, rfl, -⟩ := hlaid.ends_iff_course.mp hends
    exact hlaid.exists_raises (Run.outcome_eq_aborted_iff.mp houtcome)

/-- A run that jumps over an unknown instruction and fails on the last line.  The other
program has a label there, and a malformed instruction behind. -/
theorem ends_of_serves_failure :
    ∃ p q r, ofSource "jmp go\nboom\ngo:\nmsg 'x', b".toList = .ok p ∧
      ofSource "jmp go\nelse:\ngo:\nmsg 'x', b\nmov a".toList = .ok q ∧
      p.Serves (.constant none true) q ∧ q.Ends none true r ∧
      q.visited (.constant none true) 2 = [0, 2, 3] ∧
      r.outcome = .aborted (.failed
        { fault := .unsetRegister ['b'], line := some 3, source := some "msg 'x', b".toList,
          output := ['x'] }) := by
  obtain ⟨p, hp⟩ : ∃ p, p =
      ({ lines :=
          [.instruction { opcode := .jump, operands := [.label "go".toList],
                          token := "jmp".toList, text := "jmp go".toList },
            .instruction { opcode := .unknown, token := "boom".toList, text := "boom".toList },
            .label "go".toList,
            .instruction { opcode := .msg, operands := [.text ['x'], .register ['b']],
                           token := "msg".toList, text := "msg 'x', b".toList }]
         labels := [("go".toList, 2)] } : Program) := ⟨_, rfl⟩
  obtain ⟨q, hq⟩ : ∃ q, q =
      ({ lines :=
          [.instruction { opcode := .jump, operands := [.label "go".toList],
                          token := "jmp".toList, text := "jmp go".toList },
            .label "else".toList, .label "go".toList,
            .instruction { opcode := .msg, operands := [.text ['x'], .register ['b']],
                           token := "msg".toList, text := "msg 'x', b".toList },
            .instruction { opcode := .invalid, operands := [.register ['a']],
                           token := "mov".toList, text := "mov a".toList,
                           defect := some (.count .mov 2 1) }]
         labels := [("else".toList, 1), ("go".toList, 2)] } : Program) := ⟨_, rfl⟩
  have hsource : ofSource "jmp go\nboom\ngo:\nmsg 'x', b".toList = .ok p := by
    subst hp
    decide +kernel
  have hsource' : ofSource "jmp go\nelse:\ngo:\nmsg 'x', b\nmov a".toList = .ok q := by
    subst hq
    decide +kernel
  have hover : (p.course (.constant none true) 2).isOver = true := by
    subst hp
    decide +kernel
  have hserves : p.Serves (.constant none true) q := by
    subst hp hq
    exact .of_isOver hover (by decide +kernel) (by decide +kernel) (by decide +kernel)
  have hvisited : p.visited (.constant none true) 2 = [0, 2, 3] := by
    subst hp
    decide +kernel
  have houtcome : (p.course (.constant none true) 2).outcome = .aborted (.failed
      { fault := .unsetRegister ['b'], line := some 3, source := some "msg 'x', b".toList,
        output := ['x'] }) := by
    subst hp
    decide +kernel
  have hends := (laidOut_ofSource hsource).ends_iff_course.mpr
    ⟨2, rfl, Run.next_of_isOver hover⟩
  obtain ⟨hvisits, hsame, -, -⟩ := ends_of_serves hsource hsource' hserves
  obtain ⟨r, hends', houtcome', -, -⟩ := hsame _ hends
  exact ⟨p, q, r, hsource, hsource', hserves, hends', (hvisits 2).trans hvisited,
    houtcome'.trans houtcome⟩

end Program
end RegisterMachine
