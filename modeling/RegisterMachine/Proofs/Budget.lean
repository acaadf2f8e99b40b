import RegisterMachine.Proofs.Resting

/-!
# Running under a limit

A limit on the executed instructions acts as a threshold.  A run that attempts no
more instructions than the limit allows is not touched by it; every other run is
broken off in the state that the unlimited run has after that many instructions.  Only
a limit that is too long to be shown breaks no run off: it leaves the run stuck there.

**Contents.**
* `Program.Ends`: the whole run of a program ends in a given way.
* `Run.attempts`: the instructions that a run attempted, a failing one included.
* `Run.CutOff`: a run that was cut off where another one goes on.

**Results.**
* `Run.attempts_next`: what one unlimited step adds to the attempted instructions.
* `Program.LaidOut.attempts_proceed`: a run that is not over has attempted one
  instruction a step.
* `Program.LaidOut.runWithin_cases`: how a run under a limit ends.
* `Program.LaidOut.ends_iff`: a whole run ends where a step leaves it as it is.
* `Program.runWithin_threshold`: the threshold law.
-/

namespace RegisterMachine

/-- The whole run of a program under a limit, or under none, ends as the given run. -/
def Program.Ends (p : Program) (limit : Option Int) (recording : Bool) (r : Run) : Prop :=
  ∃ fuel, p.run? limit recording fuel = some r

namespace Run

/-- The number of attempted instructions. -/
def attempts (r : Run) : Nat :=
  r.machine.cycles + match r.abort with
    | some (.failed _) => 1
    | _ => 0

/-- A run that was cut off by its limit after as many instructions, in the state that another
run has then.  The end is reported and recorded, unless the limit is too long to be shown. -/
structure CutOff (most : Int) (cut whole : Run) : Prop where
  outcome : cut.outcome =
    if Numeral.isShowable most then .aborted (.exhausted most) else .escaped {}
  abort : cut.abort = if Numeral.isShowable most then some (.exhausted most) else none
  cycles : cut.machine.cycles = most.toNat
  whole_cycles : whole.machine.cycles = most.toNat
  registers : cut.machine.registers = whole.machine.registers
  callStack : cut.machine.callStack = whole.machine.callStack
  comparison : cut.machine.comparison = whole.machine.comparison
  output : cut.machine.output = whole.machine.output

variable {r : Run} {limit : Option Int} {recording : Bool}

theorem attempts_of_not_isOver (h : r.isOver = false) : r.attempts = r.machine.cycles := by
  simp [attempts, abort_of_not_isOver h]

/-- As long as the limit is not spent, it does not matter. -/
theorem next_of_not_spent (h : spent? limit r.machine.cycles = none) :
    r.next limit recording = r.next none recording := by
  cases hover : r.isOver with
  | true =>
      rw [next_of_isOver hover, next_of_isOver hover]
  | false =>
      cases hi : r.program.instructionAt? r.ready.pc with
      | none =>
          rw [next_of_none hover hi, next_of_none hover hi]
      | some i =>
          rw [next_of_attempt hover hi h, next_of_attempt hover hi rfl]

/-- Without a limit, a step attempts the instruction at hand, or runs off the last line. -/
theorem attempts_next (hover : r.isOver = false) (recording : Bool) :
    (r.next none recording).attempts = r.attempts + 1 ∨
      r.program.instructionAt? r.ready.pc = none ∧
        (r.next none recording).attempts = r.attempts := by
  have habort := abort_of_not_isOver hover
  have hcycles := attempts_of_not_isOver hover
  have hmoves := moves_next hover none recording
  generalize r.next none recording = after at hmoves
  cases hmoves with
  | ranOff hi =>
      refine .inr ⟨hi, ?_⟩
      simp only [attempts, habort]
      rfl
  | exhausted hi hspent =>
      cases hspent
  | executed hi hspent hperforms =>
      have hsame := hperforms.cycles_eq
      left
      rw [hcycles]
      simp only [attempts, habort, Machine.tick, hsame]
      rfl
  | failed hi hspent hfails hfault =>
      have hsame := hfails.cycles_eq
      left
      rw [hcycles]
      simp only [attempts, hsame]
      rfl

theorem attempts_le_next (r : Run) (recording : Bool) :
    r.attempts ≤ (r.next none recording).attempts ∧
      (r.next none recording).attempts ≤ r.attempts + 1 := by
  cases hover : r.isOver with
  | true =>
      rw [next_of_isOver hover]
      omega
  | false =>
      rcases attempts_next hover recording with hsucc | ⟨-, hsame⟩ <;> omega

theorem attempts_le_proceed (r : Run) (recording : Bool) {n k : Nat} (hle : n ≤ k) :
    (r.proceed none recording n).attempts ≤ (r.proceed none recording k).attempts := by
  induction hle with
  | refl =>
      exact Nat.le_refl _
  | step _ ih =>
      rw [proceed_succ]
      exact Nat.le_trans ih (attempts_le_next _ recording).1

theorem spent?_of_le {most : Int} {cycles : Nat} (h : most.toNat ≤ cycles) :
    spent? (some most) cycles = some most :=
  spent?_eq_some_iff.mpr ⟨rfl, Int.toNat_le.mp h⟩

theorem spent?_of_lt {most : Int} {cycles : Nat} (h : cycles < most.toNat) :
    spent? (some most) cycles = none := by
  have hlt : ¬ most ≤ cycles := by
    omega
  simp [spent?, Option.filter, hlt]

/-- An instruction at hand is cut off when the limit is spent. -/
theorem Sound.cutOff (h : r.Sound) {i : Instruction} {most : Int} (hover : r.isOver = false)
    (hi : r.program.instructionAt? r.ready.pc = some i)
    (hcycles : r.machine.cycles = most.toNat) (recording : Bool) :
    CutOff most (r.next (some most) recording) r := by
  have hspent := spent?_of_le (Nat.le_of_eq hcycles.symm)
  have hstuck := fun hlong => h.stuck_of_spent hover hi hspent hlong recording
  rw [next_of_spent hover hi hspent] at hstuck ⊢
  cases hshort : Numeral.isShowable most with
  | true =>
      rw [Abort.ofSpent_of_isShowable hshort]
      exact ⟨by rw [hshort]; rfl, by rw [hshort]; rfl, hcycles, hcycles, rfl, rfl, rfl, rfl⟩
  | false =>
      have houtcome := (hstuck hshort).outcome_eq
      rw [Abort.ofSpent_of_not_isShowable hshort] at houtcome ⊢
      refine ⟨?_, by rw [hshort]; rfl, hcycles, hcycles, rfl, rfl, rfl, rfl⟩
      rw [houtcome, hshort]
      rfl

/-- With its limit spent, a run can still run off the last line; an instruction at hand
is cut off. -/
theorem Sound.next_of_spent_limit (h : r.Sound) {most : Int} (hover : r.isOver = false)
    (hcycles : r.machine.cycles = most.toNat) (recording : Bool) :
    (r.next (some most) recording = r.next none recording ∧
      (r.next none recording).isOver = true ∧
      (r.next none recording).attempts = most.toNat) ∨
    (CutOff most (r.next (some most) recording) r ∧
      (r.next none recording).attempts = most.toNat + 1) := by
  have hattempts := attempts_of_not_isOver hover
  cases hi : r.program.instructionAt? r.ready.pc with
  | none =>
      left
      rw [next_of_none hover hi, next_of_none hover hi]
      refine ⟨rfl, h.isOver_ready hi, ?_⟩
      rw [← hcycles, ← hattempts]
      rfl
  | some i =>
      refine .inr ⟨h.cutOff hover hi hcycles recording, ?_⟩
      rcases attempts_next hover recording with hsucc | ⟨hnone, -⟩
      · rw [hsucc, hattempts, hcycles]
      · rw [hi] at hnone
        cases hnone

/-- With its limit spent, a run is at rest one step later. -/
theorem Sound.next_next_of_spent_limit (h : r.Sound) {most : Int}
    (hcycles : r.machine.cycles = most.toNat) (recording : Bool) :
    (r.next (some most) recording).next (some most) recording = r.next (some most) recording := by
  cases hover : r.isOver with
  | true =>
      rw [next_of_isOver hover, next_of_isOver hover]
  | false =>
      cases hi : r.program.instructionAt? r.ready.pc with
      | none =>
          rw [next_of_none hover hi, next_of_isOver (h.isOver_ready hi)]
      | some i =>
          have hspent := spent?_of_le (Nat.le_of_eq hcycles.symm)
          cases hshort : Numeral.isShowable most with
          | true =>
              have hcut := (h.cutOff hover hi hcycles recording).abort
              rw [hshort, if_pos rfl] at hcut
              exact next_of_isOver (isOver_iff.mpr (.inl (by rw [hcut]; rfl)))
          | false =>
              exact (h.stuck_of_spent hover hi hspent hshort recording).next_eq recording

end Run

namespace Program

variable {p : Program} {recording : Bool}

/-- Without a limit, a run ends as soon as a number of steps leads to its end. -/
theorem ends_none_iff {r : Run} :
    p.Ends none recording r ↔
      ∃ n, (Run.start p).proceed none recording n = r ∧ r.isOver = true := by
  constructor
  · rintro ⟨fuel, hfuel⟩
    simp only [run?, Option.ite_none_right_eq_some, Option.some.injEq] at hfuel
    obtain ⟨hover, rfl⟩ := hfuel
    exact ⟨fuel, rfl, hover⟩
  · rintro ⟨n, rfl, hover⟩
    exact ⟨n, by simp [run?, hover]⟩

theorem ends_some_iff {most : Int} {r : Run} :
    p.Ends (some most) recording r ↔ p.runWithin most recording = r := by
  simp [Ends, run?]

/-- A run has one end. -/
theorem Ends.unique {limit : Option Int} {r r' : Run} (h : p.Ends limit recording r)
    (h' : p.Ends limit recording r') : r = r' := by
  cases limit with
  | some most =>
      rw [ends_some_iff] at h h'
      rw [← h, ← h']
  | none =>
      obtain ⟨n, rfl, hover⟩ := ends_none_iff.mp h
      obtain ⟨k, rfl, hover'⟩ := ends_none_iff.mp h'
      rcases Nat.le_total n k with hle | hle
      · exact (Run.proceed_of_le hover hle).symm
      · exact Run.proceed_of_le hover' hle

/-- A run attempts at most one instruction a step. -/
theorem attempts_proceed_le (p : Program) (recording : Bool) (n : Nat) :
    ((Run.start p).proceed none recording n).attempts ≤ n := by
  induction n with
  | zero =>
      exact Nat.le_refl 0
  | succ n ih =>
      have hnext := (Run.attempts_le_next ((Run.start p).proceed none recording n) recording).2
      rw [Run.proceed_succ]
      omega

/-- **A run that is not over has attempted one instruction a step.** -/
theorem LaidOut.attempts_proceed (h : p.LaidOut) {n : Nat}
    (hover : ((Run.start p).proceed none recording n).isOver = false) :
    ((Run.start p).proceed none recording n).attempts = n := by
  induction n with
  | zero =>
      rfl
  | succ n ih =>
      rw [Run.proceed_succ] at hover ⊢
      have hsound := (Run.Sound.initial h).proceed none recording n
      generalize (Run.start p).proceed none recording n = r at hover ih hsound ⊢
      cases hbefore : r.isOver with
      | true =>
          rw [Run.next_of_isOver hbefore, hbefore] at hover
          cases hover
      | false =>
          rcases Run.attempts_next hbefore recording with hsucc | ⟨hi, -⟩
          · rw [hsucc, ih hbefore]
          · -- a run that has run off the last line would be over
            rw [Run.next_of_none hbefore hi, hsound.isOver_ready hi] at hover
            cases hover

/-- As many steps as the limit has instructions are not touched by it. -/
theorem LaidOut.proceed_some (h : p.LaidOut) {most : Int} {n : Nat} (hn : n ≤ most.toNat) :
    (Run.start p).proceed (some most) recording n =
      (Run.start p).proceed none recording n := by
  induction n with
  | zero =>
      rfl
  | succ n ih =>
      rw [Run.proceed_succ, Run.proceed_succ, ih (by omega)]
      cases hover : ((Run.start p).proceed none recording n).isOver with
      | true =>
          rw [Run.next_of_isOver hover, Run.next_of_isOver hover]
      | false =>
          have hcycles := h.attempts_proceed hover
          rw [Run.attempts_of_not_isOver hover] at hcycles
          apply Run.next_of_not_spent
          apply Run.spent?_of_lt
          omega

/-- **How a run under a limit ends:** like the unlimited run, which attempts no more
instructions than the limit allows, or broken off at one instruction too many. -/
theorem LaidOut.runWithin_cases (h : p.LaidOut) (most : Int) (recording : Bool) :
    (p.Ends none recording (p.runWithin most recording) ∧
      (p.runWithin most recording).attempts ≤ most.toNat) ∨
    (Run.CutOff most (p.runWithin most recording)
        ((Run.start p).proceed none recording most.toNat) ∧
      ∀ r, p.Ends none recording r → most.toNat < r.attempts) := by
  have hsound := (Run.Sound.initial h).proceed none recording most.toNat
  have hrun : p.runWithin most recording =
      ((Run.start p).proceed none recording most.toNat).next (some most) recording := by
    rw [runWithin, Run.proceed_succ, h.proceed_some (Nat.le_refl _)]
  rw [hrun]
  cases hover : ((Run.start p).proceed none recording most.toNat).isOver with
  | true =>
      left
      rw [Run.next_of_isOver hover]
      exact ⟨ends_none_iff.mpr ⟨_, rfl, hover⟩, attempts_proceed_le p recording most.toNat⟩
  | false =>
      have hcycles := h.attempts_proceed hover
      rw [Run.attempts_of_not_isOver hover] at hcycles
      rcases hsound.next_of_spent_limit hover hcycles recording with
        ⟨hsame, hend, hattempts⟩ | ⟨hcut, hattempts⟩
      · left
        rw [hsame]
        refine ⟨ends_none_iff.mpr ⟨most.toNat + 1, ?_, hend⟩, Nat.le_of_eq hattempts⟩
        rw [Run.proceed_succ]
      · refine .inr ⟨hcut, ?_⟩
        intro r hr
        obtain ⟨n, rfl, hend⟩ := ends_none_iff.mp hr
        have hlt : most.toNat + 1 ≤ n := by
          by_contra hge
          rw [Run.proceed_of_le hend (by omega), hend] at hover
          cases hover
        -- the unlimited run attempts the instruction at hand before it ends
        have hmono := Run.attempts_le_proceed (Run.start p) recording hlt
        rw [Run.proceed_succ, hattempts] at hmono
        exact hmono

/-- **A run under a limit comes to rest**: it is over, or stuck. -/
theorem LaidOut.next_runWithin (h : p.LaidOut) (most : Int) (recording : Bool) :
    (p.runWithin most recording).next (some most) recording = p.runWithin most recording := by
  have hsound := (Run.Sound.initial h).proceed none recording most.toNat
  rw [runWithin, Run.proceed_succ, h.proceed_some (Nat.le_refl _)]
  cases hover : ((Run.start p).proceed none recording most.toNat).isOver with
  | true =>
      rw [Run.next_of_isOver hover, Run.next_of_isOver hover]
  | false =>
      have hcycles := h.attempts_proceed hover
      rw [Run.attempts_of_not_isOver hover] at hcycles
      exact hsound.next_next_of_spent_limit hcycles recording

theorem LaidOut.isOver_or_stuck_runWithin (h : p.LaidOut) (most : Int) (recording : Bool) :
    (p.runWithin most recording).isOver = true ∨
      Numeral.isShowable most = false ∧ (p.runWithin most recording).Stuck (some most) := by
  have hsound := (Run.Sound.initial h).proceed (some most) recording (most.toNat + 1)
  rcases hsound.next_eq_self_iff.mp (h.next_runWithin most recording) with hover | hstuck
  · exact .inl hover
  · obtain ⟨other, hspent, hlong⟩ := hstuck.limit
    obtain ⟨heq, -⟩ := Run.spent?_eq_some_iff.mp hspent
    cases heq
    exact .inr ⟨hlong, hstuck⟩

/-- A limit that can be shown leaves no run stuck. -/
theorem LaidOut.isOver_of_run? (h : p.LaidOut) {limit : Option Int} {fuel : Nat} {r : Run}
    (hlimit : ∀ most, limit = some most → Numeral.isShowable most = true)
    (hr : p.run? limit recording fuel = some r) : r.isOver = true := by
  cases limit with
  | none =>
      simp only [run?, Option.ite_none_right_eq_some, Option.some.injEq] at hr
      rw [← hr.2]
      exact hr.1
  | some most =>
      cases hr
      rcases h.isOver_or_stuck_runWithin most recording with hover | ⟨hlong, -⟩
      · exact hover
      · rw [hlimit most rfl] at hlong
        cases hlong

/-- **A whole run ends** where a number of steps leads to a run that one more leaves as it
is. -/
theorem LaidOut.ends_iff (h : p.LaidOut) {limit : Option Int} {r : Run} :
    p.Ends limit recording r ↔
      ∃ n, (Run.start p).proceed limit recording n = r ∧ r.next limit recording = r := by
  cases limit with
  | none =>
      rw [ends_none_iff]
      constructor
      · rintro ⟨n, rfl, hover⟩
        exact ⟨n, rfl, Run.next_of_isOver hover⟩
      · rintro ⟨n, rfl, hrest⟩
        rcases ((Run.Sound.initial h).proceed none recording n).next_eq_self_iff.mp hrest with
          hover | hstuck
        · exact ⟨n, rfl, hover⟩
        · obtain ⟨most, hspent, -⟩ := hstuck.limit
          cases hspent
  | some most =>
      have hend := h.next_runWithin most recording
      rw [ends_some_iff]
      constructor
      · rintro rfl
        exact ⟨most.toNat + 1, rfl, hend⟩
      · rintro ⟨n, rfl, hrest⟩
        rcases Nat.le_total n (most.toNat + 1) with hle | hle
        · exact Run.proceed_of_next_eq hrest hle
        · exact (Run.proceed_of_next_eq hend hle).symm

/-- **The threshold law.**  If the unlimited run ends and attempts no more instructions than
the limit allows, the run under the limit is the same; if it attempts more or does not end,
then the run under the limit is cut off in the state that the unlimited run has after as many
instructions.  In any case the run under the limit comes to rest. -/
theorem runWithin_threshold {source : Text} {p : Program} (h : ofSource source = .ok p)
    (most : Int) (recording : Bool) :
    ((p.runWithin most recording).isOver = true ∨
      Numeral.isShowable most = false ∧ (p.runWithin most recording).Stuck (some most)) ∧
    (∀ r, p.Ends none recording r → r.attempts ≤ most.toNat →
      p.runWithin most recording = r) ∧
    (∀ r, p.Ends none recording r → most.toNat < r.attempts →
      Run.CutOff most (p.runWithin most recording)
        ((Run.start p).proceed none recording most.toNat)) ∧
    ((∀ r, ¬ p.Ends none recording r) →
      Run.CutOff most (p.runWithin most recording)
        ((Run.start p).proceed none recording most.toNat)) := by
  have hp := laidOut_ofSource h
  refine ⟨hp.isOver_or_stuck_runWithin most recording, ?_⟩
  rcases hp.runWithin_cases most recording with ⟨hends, hle⟩ | ⟨hcut, hlt⟩
  · refine ⟨?_, ?_, ?_⟩
    · intro r hr _
      exact hends.unique hr
    · intro r hr hmore
      rw [← hends.unique hr] at hmore
      omega
    · intro hnever
      exact absurd hends (hnever _)
  · refine ⟨?_, fun _ _ _ => hcut, fun _ => hcut⟩
    intro r hr hle
    have hmore := hlt r hr
    omega

/-- A run whose second and last instruction fails needs a limit of two instructions. -/
theorem runWithin_threshold_failure :
    ∃ p r, ofSource "mov a,1\ndiv a,0\n; done".toList = .ok p ∧ p.Ends none false r ∧
      r.attempts = 2 ∧ r.machine.cycles = 1 ∧ p.runWithin 2 false = r ∧
      Run.CutOff 1 (p.runWithin 1 false) ((Run.start p).proceed none false 1) ∧
      Run.CutOff (-3) (p.runWithin (-3) false) (Run.start p) := by
  obtain ⟨p, hp⟩ : ∃ p, p =
      ({ lines :=
          [.instruction { opcode := .mov, operands := [.register ['a'], .integer 1],
                          token := "mov".toList, text := "mov a,1".toList },
            .instruction { opcode := .arithmetic .div,
                           operands := [.register ['a'], .integer 0],
                           token := "div".toList, text := "div a,0".toList },
            .blank] } : Program) := ⟨_, rfl⟩
  have hsource : ofSource "mov a,1\ndiv a,0\n; done".toList = .ok p := by
    subst hp
    decide +kernel
  have hends : p.Ends none false ((Run.start p).proceed none false 2) := by
    refine ends_none_iff.mpr ⟨2, rfl, ?_⟩
    subst hp
    decide +kernel
  have hattempts : ((Run.start p).proceed none false 2).attempts = 2 := by
    subst hp
    decide +kernel
  have hcycles : ((Run.start p).proceed none false 2).machine.cycles = 1 := by
    subst hp
    decide +kernel
  refine ⟨p, _, hsource, hends, hattempts, hcycles, ?_, ?_, ?_⟩
  · obtain ⟨-, hsame, -⟩ := runWithin_threshold hsource 2 false
    exact hsame _ hends (Nat.le_of_eq hattempts)
  · obtain ⟨-, -, hcut, -⟩ := runWithin_threshold hsource 1 false
    exact hcut _ hends (by rw [hattempts]; decide)
  · obtain ⟨-, -, hcut, -⟩ := runWithin_threshold hsource (-3) false
    exact hcut _ hends (by rw [hattempts]; decide)

/-- A limit with one digit too many leaves a program before its first instruction, without a
word about it. -/
theorem exists_limit_without_abort :
    ∃ p r, ofSource "end".toList = .ok p ∧ p.Ends none false r ∧ r.attempts = 1 ∧
      (-Numeral.overlong : Int).toNat < r.attempts ∧
      (p.runWithin (-Numeral.overlong) false).outcome = .escaped {} ∧
      (p.runWithin (-Numeral.overlong) false).abort = none := by
  obtain ⟨p, hp⟩ : ∃ p, p =
      ({ lines := [.instruction { opcode := .halt, token := "end".toList,
                                  text := "end".toList }] } : Program) := ⟨_, rfl⟩
  have hsource : ofSource "end".toList = .ok p := by
    subst hp
    decide +kernel
  have hends : p.Ends none false ((Run.start p).proceed none false 1) := by
    refine ends_none_iff.mpr ⟨1, rfl, ?_⟩
    subst hp
    rfl
  have hattempts : ((Run.start p).proceed none false 1).attempts = 1 := by
    subst hp
    rfl
  obtain ⟨most, hmost⟩ : ∃ most : Int, most = -Numeral.overlong := ⟨_, rfl⟩
  have hlong : Numeral.isShowable most = false := by
    rw [hmost]
    exact Numeral.not_isShowable_neg_overlong
  have hnegative : most.toNat = 0 := by
    rw [hmost]
    exact Int.toNat_of_nonpos Numeral.neg_overlong_nonpos
  rw [← hmost]
  have hlt : most.toNat < ((Run.start p).proceed none false 1).attempts := by
    rw [hnegative, hattempts]
    exact Nat.zero_lt_one
  rcases (laidOut_ofSource hsource).runWithin_cases most false with ⟨hsame, hle⟩ | ⟨hcut, -⟩
  · rw [hsame.unique hends] at hle
    omega
  · have houtcome := hcut.outcome
    have habort := hcut.abort
    rw [hlong, if_neg Bool.false_ne_true] at houtcome habort
    exact ⟨p, _, hsource, hends, hattempts, hlt, houtcome, habort⟩

end Program
end RegisterMachine
