import RegisterMachine.Proofs.Budget
import RegisterMachine.Proofs.Hazard

/-!
# Corresponding programs

Two programs may hold the same instructions on different lines.  A machine that
executes one of them follows a machine that executes the other: at every
instruction both stand at corresponding lines and agree in everything else.

Between two instructions the positions may differ by lines that have nothing to
execute, so they are near each other only.

**Contents.**
* `Correspondence`: how the lines of two programs correspond.
* `Machine.relocate`: the same machine at the corresponding lines.
* `Correspondence.Follows`: a machine near the corresponding line.
* `Correspondence.Matches`: programs with the same instructions at corresponding lines.
* `Correspondence.Shadows`: a run that goes as the run of a matching program.

**Results.**
* `Correspondence.alike_execute`: an instruction does the same to both machines.
* `Correspondence.Shadows.next`: a step keeps the shadow, even if one of the runs ends
  a step before the other.
* `Correspondence.Shadows.isOver_eq`: both are over when the shadow is at rest.
* `Correspondence.Matches.ends`, `Correspondence.Matches.ends_of_ends`: matching programs
  end alike.
-/

namespace RegisterMachine

/-- How the lines of two programs correspond.  Where execution can go from a line, it can
go near there from the corresponding line. -/
structure Correspondence where
  place : Int → Int
  Near : Int → Int → Prop
  near_start : Near 0 0
  near_place : ∀ pc, Near pc (place pc)
  near_next : ∀ pc, Near (pc + 1) (place pc + 1)

/-- The same machine at the corresponding lines. -/
def Machine.relocate (c : Correspondence) (m : Machine) : Machine :=
  { m with pc := c.place m.pc, callStack := m.callStack.map c.place }

/-- The operand that an action goes to. -/
def Action.target? : Action → Option Operand
  | .jump target => some target
  | .branch _ target => some target
  | .call target => some target
  | _ => none

/-- A decoded instruction goes to the label that it names. -/
theorem Instruction.Decoded.target?_eq {i : Instruction} {target : Operand} (h : i.Decoded)
    (htarget : i.action.target? = some target) :
    ∃ name, target = .label name ∧ i.target? = some name := by
  have hform := h.form
  generalize i.action = action at hform htarget
  cases hform with
  | jump hopcode hoperands =>
      cases htarget
      exact ⟨_, rfl, by simp [target?, hopcode, hoperands, Operand.label?]⟩
  | branch hopcode hoperands =>
      cases htarget
      exact ⟨_, rfl, by simp [target?, hopcode, hoperands, Operand.label?]⟩
  | call hopcode hoperands =>
      cases htarget
      exact ⟨_, rfl, by simp [target?, hopcode, hoperands, Operand.label?]⟩
  | _ => cases htarget

namespace Correspondence

variable {c : Correspondence} {p p' : Program} {m m' : Machine}

/-- A machine that agrees with the given one except that it is near the corresponding
line. -/
def Follows (c : Correspondence) (m m' : Machine) : Prop :=
  ∃ pc, c.Near m.pc pc ∧ m' = (m.relocate c).jump pc

theorem follows_relocate (c : Correspondence) (m : Machine) : c.Follows m (m.relocate c) :=
  ⟨c.place m.pc, c.near_place m.pc, rfl⟩

theorem follows_advance (c : Correspondence) (m : Machine) :
    c.Follows m.advance (m.relocate c).advance :=
  ⟨c.place m.pc + 1, c.near_next m.pc, rfl⟩

theorem Follows.same (h : c.Follows m m') :
    m'.registers = m.registers ∧ m'.comparison = m.comparison ∧ m'.output = m.output ∧
      m'.result = m.result ∧ m'.cycles = m.cycles := by
  obtain ⟨pc, -, rfl⟩ := h
  exact ⟨rfl, rfl, rfl, rfl, rfl⟩

theorem Follows.halted_eq (h : c.Follows m m') : m'.halted = m.halted := by
  obtain ⟨pc, -, rfl⟩ := h
  rfl

theorem Follows.tick (h : c.Follows m m') : c.Follows m.tick m'.tick := by
  obtain ⟨pc, hpc, rfl⟩ := h
  exact ⟨pc, hpc, rfl⟩

theorem eval_relocate (c : Correspondence) (m : Machine) (operand : Operand) :
    (m.relocate c).eval operand = m.eval operand := by
  cases operand <;> rfl

theorem rendered_relocate (c : Correspondence) (m : Machine) (operands : List Operand) :
    (m.relocate c).rendered operands = m.rendered operands := by
  induction operands with
  | nil =>
      rfl
  | cons operand operands ih =>
      have hrender : (m.relocate c).render operand = m.render operand := by
        cases operand <;> rfl
      simp only [Machine.rendered, hrender, ih]

/-- Two attempts that fail alike, if they fail, with machines that follow one another. -/
structure Alike (c : Correspondence) (attempt attempt' : Attempt) : Prop where
  fault : attempt'.fault = attempt.fault
  machine : c.Follows attempt.machine attempt'.machine

theorem Alike.counted {attempt attempt' : Attempt} (h : c.Alike attempt attempt') :
    c.Alike attempt.counted attempt'.counted := by
  obtain ⟨hfault, hmachine⟩ := h
  cases hsome : attempt.fault with
  | none =>
      rw [hsome] at hfault
      simp only [Attempt.counted, hsome, hfault]
      exact ⟨rfl, hmachine.tick⟩
  | some fault =>
      rw [hsome] at hfault
      simp only [Attempt.counted, hsome, hfault]
      exact ⟨by rw [hfault, hsome], hmachine⟩

theorem alike_ofResult {result result' : Except Fault Machine}
    (h : Result.Agree c.Follows result result') :
    c.Alike (.ofResult m result) (.ofResult (m.relocate c) result') := by
  cases h with
  | ok h => exact ⟨rfl, h⟩
  | error fault => exact ⟨rfl, c.follows_relocate m⟩

theorem agree_assign (c : Correspondence) (m : Machine) (destination source : Operand) :
    Result.Agree c.Follows (m.assign destination source)
      ((m.relocate c).assign destination source) := by
  unfold Machine.assign
  rw [eval_relocate]
  refine .bind_same _ fun name => .bind_same _ fun value => .ok ?_
  exact c.follows_advance (m.set name value)

theorem agree_combine (c : Correspondence) (m : Machine) (operation : Arithmetic)
    (destination source : Operand) :
    Result.Agree c.Follows (m.combine operation destination source)
      ((m.relocate c).combine operation destination source) := by
  unfold Machine.combine
  rw [eval_relocate]
  refine .bind_same _ fun name => .bind_same _ fun lhs => .bind_same _ fun rhs =>
    .bind_same _ fun value => .ok ?_
  exact c.follows_advance (m.set name value)

theorem agree_compare (c : Correspondence) (m : Machine) (lhs rhs : Operand) :
    Result.Agree c.Follows (m.compareOperands lhs rhs)
      ((m.relocate c).compareOperands lhs rhs) := by
  unfold Machine.compareOperands
  rw [eval_relocate, eval_relocate]
  refine .bind_same _ fun a => .bind_same _ fun b => .ok ?_
  exact c.follows_advance (m.compare a b)

theorem agree_ret (c : Correspondence) (m : Machine) :
    Result.Agree c.Follows m.ret (m.relocate c).ret := by
  unfold Machine.ret Machine.pop
  cases hstack : m.callStack with
  | nil =>
      simp only [Machine.relocate, hstack, List.map_nil]
      exact .error _
  | cons index rest =>
      simp only [Machine.relocate, hstack, List.map_cons]
      exact .ok ⟨c.place index + 1, c.near_next index, rfl⟩

/-- Two programs in which a target leads to lines near each other, or to none in both. -/
def Locates (c : Correspondence) (p p' : Program) (target : Operand) : Prop :=
  Result.Agree (fun index index' : Nat => c.Near index index')
    (p.locate target) (p'.locate target)

theorem agree_branch {target : Operand} (h : c.Locates p p' target) (m : Machine)
    (relation : Relation) :
    Result.Agree c.Follows (m.branch p relation target)
      ((m.relocate c).branch p' relation target) := by
  refine Result.Agree.bind h fun index index' hnear => ?_
  refine .bind_same _ fun values => .ok ?_
  split
  · exact ⟨index', hnear, rfl⟩
  · exact c.follows_advance m

theorem agree_call {target : Operand} (h : c.Locates p p' target) (m : Machine) :
    Result.Agree c.Follows (m.call p target) ((m.relocate c).call p' target) := by
  refine Result.Agree.bind h fun index index' hnear => .ok ?_
  exact ⟨index', hnear, rfl⟩

theorem alike_write (c : Correspondence) (m : Machine) (parts : List Operand) :
    c.Alike (m.write parts) ((m.relocate c).write parts) := by
  rw [Machine.write_eq, Machine.write_eq, rendered_relocate]
  cases (m.rendered parts).2 with
  | none => exact ⟨rfl, c.follows_advance (m.append (m.rendered parts).1)⟩
  | some fault => exact ⟨rfl, c.follows_relocate (m.append (m.rendered parts).1)⟩

theorem alike_perform {a : Action}
    (h : ∀ target, a.target? = some target → c.Locates p p' target) (m : Machine) :
    c.Alike (a.perform p m) (a.perform p' (m.relocate c)) := by
  cases a with
  | assign destination source =>
      exact alike_ofResult (c.agree_assign m destination source)
  | combine operation destination source =>
      exact alike_ofResult (c.agree_combine m operation destination source)
  | compare lhs rhs =>
      exact alike_ofResult (c.agree_compare m lhs rhs)
  | jump target =>
      have hlocates := h target rfl
      unfold Locates at hlocates
      simp only [Action.perform]
      generalize p.locate target = found, p'.locate target = found' at hlocates ⊢
      cases hlocates with
      | ok hnear => exact ⟨rfl, _, hnear, rfl⟩
      | error fault => exact ⟨rfl, c.follows_relocate m⟩
  | branch relation target =>
      exact alike_ofResult (agree_branch (h target rfl) m relation)
  | call target =>
      exact alike_ofResult (agree_call (h target rfl) m)
  | ret =>
      exact alike_ofResult (c.agree_ret m)
  | write parts =>
      exact c.alike_write m parts
  | halt =>
      exact ⟨rfl, c.follows_relocate m.finish⟩
  | fail fault =>
      exact ⟨rfl, c.follows_relocate m⟩

/-- **An instruction does the same to both machines.** -/
theorem alike_execute {i : Instruction}
    (h : ∀ target, i.action.target? = some target → c.Locates p p' target) (m : Machine) :
    c.Alike (i.execute p m) (i.execute p' (m.relocate c)) :=
  (alike_perform h m).counted

end Correspondence

/-- The same end with the line of its failure moved. -/
def Abort.mapLine (f : Int → Int) : Abort → Abort
  | .failed failure => .failed { failure with line := failure.line.map f }
  | .exhausted limit => .exhausted limit

/-- The end that a spent limit puts to a run has no line. -/
theorem Abort.map_mapLine_ofSpent (f : Int → Int) (most : Int) :
    (ofSpent most).map (mapLine f) = ofSpent most := by
  cases hshort : Numeral.isShowable most with
  | true => simp [ofSpent_of_isShowable hshort, mapLine]
  | false => simp [ofSpent_of_not_isShowable hshort]

/-- The same outcome with the line of its failure moved. -/
def Outcome.mapLine (f : Int → Int) : Outcome → Outcome
  | .aborted cause => .aborted (cause.mapLine f)
  | outcome => outcome

/-- Two runs that end alike, the second with the line of its failure moved. -/
structure Run.SameEnd (f : Int → Int) (r r' : Run) : Prop where
  outcome : r'.outcome = r.outcome.mapLine f
  registers : r'.machine.registers = r.machine.registers
  comparison : r'.machine.comparison = r.machine.comparison
  output : r'.machine.output = r.machine.output
  cycles : r'.machine.cycles = r.machine.cycles

namespace Correspondence

variable {c : Correspondence} {p p' : Program} {r r' : Run}
variable {limit : Option Int} {recording : Bool}

/-- Two programs with the same instructions at corresponding lines, and nothing to execute
between lines that are near each other. -/
structure Matches (c : Correspondence) (p p' : Program) : Prop where
  settle : ∀ m m', 0 ≤ m.pc → c.Follows m m' → m'.settle p' = (m.settle p).relocate c
  instructionAt? : ∀ pc, 0 ≤ pc → p'.instructionAt? (c.place pc) = p.instructionAt? pc
  size_le : ∀ pc pc' : Int, c.Near pc pc' → p'.size ≤ pc' → p.size ≤ pc
  le_place : ∀ pc : Int, p.size ≤ pc → p'.size ≤ c.place pc
  locates : ∀ pc i target, p.instructionAt? pc = some i → i.action.target? = some target →
    c.Locates p p' target

/-- A run of a program that goes as the run of a corresponding one. -/
structure Shadows (c : Correspondence) (r r' : Run) : Prop where
  programs : c.Matches r.program r'.program
  machine : c.Follows r.machine r'.machine
  abort : r'.abort = r.abort.map (Abort.mapLine c.place)

theorem failureOf_relocate {i : Instruction} {ready : Machine} {attempt attempt' : Attempt}
    (h : c.Alike attempt attempt') :
    (Run.failureOf i (ready.relocate c) attempt').map Abort.failed =
      ((Run.failureOf i ready attempt).map Abort.failed).map (Abort.mapLine c.place) := by
  obtain ⟨-, -, houtput, -, -⟩ := h.machine.same
  rw [Run.failureOf, Run.failureOf, h.fault, houtput]
  cases attempt.fault <;> rfl

namespace Shadows

theorem start (h : c.Matches p p') : c.Shadows (.start p) (.start p') where
  programs := h
  machine := ⟨0, c.near_start, rfl⟩
  abort := rfl

/-- A run that has come to its end first is not the one that shadows. -/
theorem isOver_of_isOver (h : c.Shadows r r') (hover : r'.isOver = true) :
    r.isOver = true := by
  obtain ⟨pc, hnear, hmachine⟩ := h.machine
  have hpc : r'.machine.pc = pc := by
    rw [hmachine]
    rfl
  have hsize := h.programs.size_le r.machine.pc pc hnear
  simp only [Run.isOver, h.abort, Option.isSome_map, Machine.finished, h.machine.halted_eq,
    hpc, Bool.or_eq_true, decide_eq_true_eq] at hover ⊢
  rcases hover with habort | hhalted | hend
  · exact .inl habort
  · exact .inr (.inl hhalted)
  · exact .inr (.inr (hsize hend))

/-- Where only the run that shadows is left, it stands before the end of its program. -/
theorem size_le_of_isOver (h : c.Shadows r r') (hover : r.isOver = true)
    (hover' : r'.isOver = false) : r.program.size ≤ r.machine.pc := by
  have habort := Run.abort_of_not_isOver hover'
  have hhalted := Run.halted_of_not_isOver hover'
  rw [h.abort, Option.map_eq_none_iff] at habort
  rw [h.machine.halted_eq] at hhalted
  simpa [Run.isOver, Machine.finished, habort, hhalted] using hover

theorem ready_eq (h : c.Shadows r r') (hpc : 0 ≤ r.machine.pc) :
    r'.ready = r.ready.relocate c :=
  h.programs.settle r.machine r'.machine hpc h.machine

/-- Where only the run that shadows is left, one step takes it to its end. -/
theorem next_of_isOver (h : c.Shadows r r') (hpc : 0 ≤ r.machine.pc)
    (hover : r.isOver = true) (limit : Option Int) (recording : Bool) :
    (r'.next limit recording).isOver = true ∧ c.Shadows r (r'.next limit recording) := by
  cases hover' : r'.isOver with
  | true =>
      rw [Run.next_of_isOver hover']
      exact ⟨hover', h⟩
  | false =>
      -- only lines without instruction are left, and settling moves over them
      have hsize := h.size_le_of_isOver hover hover'
      have hready : r'.ready = r.machine.relocate c := by
        rw [h.ready_eq hpc, Run.ready, Machine.settle_of_size_le hsize]
      have hi : r'.program.instructionAt? r'.ready.pc = none := by
        rw [hready]
        cases hi : r.program.instructionAt? r.machine.pc with
        | none =>
            exact (h.programs.instructionAt? r.machine.pc hpc).trans hi
        | some i =>
            have hlt := Machine.lt_size_of_instructionAt? hi
            omega
      have hend := h.programs.le_place r.machine.pc hsize
      rw [Run.next_of_none hover' hi, hready]
      refine ⟨?_, h.programs, c.follows_relocate r.machine, h.abort⟩
      simp only [Run.isOver, Machine.finished, Bool.or_eq_true, decide_eq_true_eq]
      exact .inr (.inr hend)

/-- A run that is not over and the run that shadows it take the same step. -/
theorem next_of_not_isOver (h : c.Shadows r r') (hpc : 0 ≤ r.machine.pc)
    (hready_pc : 0 ≤ r.ready.pc) (hover : r.isOver = false) :
    c.Shadows (r.next limit recording) (r'.next limit recording) := by
  have hover' : r'.isOver = false := by
    cases hover' : r'.isOver with
    | false => rfl
    | true => rw [← hover, h.isOver_of_isOver hover']
  -- the machines are only near each other, but they correspond once they are settled
  have hready := h.ready_eq hpc
  obtain ⟨-, -, -, -, hcycles⟩ := h.machine.same
  have hi' : r'.program.instructionAt? r'.ready.pc = r.program.instructionAt? r.ready.pc := by
    rw [hready]
    exact h.programs.instructionAt? r.ready.pc hready_pc
  cases hi : r.program.instructionAt? r.ready.pc with
  | none =>
      rw [hi] at hi'
      rw [Run.next_of_none hover hi, Run.next_of_none hover' hi', hready]
      exact ⟨h.programs, c.follows_relocate r.ready, h.abort⟩
  | some i =>
      rw [hi] at hi'
      cases hspent : Run.spent? limit r.machine.cycles with
      | some most =>
          have hspent' := hspent
          rw [← hcycles] at hspent'
          rw [Run.next_of_spent hover hi hspent, Run.next_of_spent hover' hi' hspent', hready]
          exact ⟨h.programs, c.follows_relocate r.ready, (Abort.map_mapLine_ofSpent _ most).symm⟩
      | none =>
          have hspent' := hspent
          rw [← hcycles] at hspent'
          have halike := alike_execute (h.programs.locates r.ready.pc i · hi) r.ready
          rw [Run.next_of_attempt hover hi hspent, Run.next_of_attempt hover' hi' hspent', hready]
          refine ⟨h.programs, halike.machine, ?_⟩
          exact failureOf_relocate halike

/-- **A step keeps the shadow.** -/
theorem next (h : c.Shadows r r') (hsound : r.Sound) (limit : Option Int) (recording : Bool) :
    c.Shadows (r.next limit recording) (r'.next limit recording) := by
  cases hover : r.isOver with
  | true =>
      rw [Run.next_of_isOver hover]
      exact (h.next_of_isOver hsound.machine.pc_nonneg hover limit recording).2
  | false =>
      exact h.next_of_not_isOver hsound.machine.pc_nonneg hsound.machine.settle.pc_nonneg hover

theorem proceed (h : c.Shadows r r') (hsound : r.Sound) (limit : Option Int)
    (recording : Bool) (n : Nat) :
    c.Shadows (r.proceed limit recording n) (r'.proceed limit recording n) := by
  induction n with
  | zero =>
      exact h
  | succ n ih =>
      rw [Run.proceed_succ, Run.proceed_succ]
      exact ih.next (hsound.proceed limit recording n) limit recording

/-- A run that shadows another one and is at rest is over if the other one is. -/
theorem isOver_eq (h : c.Shadows r r') (hpc : 0 ≤ r.machine.pc)
    (hrest : r'.next limit recording = r') : r'.isOver = r.isOver := by
  cases hover : r.isOver with
  | true =>
      have hover' := (h.next_of_isOver hpc hover limit recording).1
      rw [hrest] at hover'
      exact hover'
  | false =>
      rw [Bool.eq_false_iff]
      intro hover'
      rw [h.isOver_of_isOver hover'] at hover
      cases hover

theorem outcome_eq (h : c.Shadows r r') (hover : r'.isOver = r.isOver) :
    r'.outcome = r.outcome.mapLine c.place := by
  obtain ⟨-, -, -, hresult, -⟩ := h.machine.same
  have habort' := h.abort
  cases habort : r.abort with
  | some cause =>
      rw [habort] at habort'
      rw [Run.outcome_eq_aborted_iff.mpr habort, Run.outcome_eq_aborted_iff.mpr habort']
      rfl
  | none =>
      rw [habort] at habort'
      rw [Run.outcome_of_abort_eq_none habort, Run.outcome_of_abort_eq_none habort', hover, hresult]
      cases r.isOver <;> cases r.machine.result <;> rfl

theorem sameEnd (h : c.Shadows r r') (hover : r'.isOver = r.isOver) :
    Run.SameEnd c.place r r' := by
  obtain ⟨hregisters, hcomparison, houtput, -, hcycles⟩ := h.machine.same
  exact ⟨h.outcome_eq hover, hregisters, hcomparison, houtput, hcycles⟩

end Shadows

namespace Matches

/-- Under a limit, matching programs come to rest after as many steps. -/
theorem runWithin (h : c.Matches p p') (hp : p.LaidOut) (hp' : p'.LaidOut) (most : Int)
    (recording : Bool) :
    Run.SameEnd c.place (p.runWithin most recording) (p'.runWithin most recording) := by
  have hsound := Run.Sound.initial hp
  have hshadows := (Shadows.start h).proceed hsound (some most) recording (most.toNat + 1)
  have hpc := (hsound.proceed (some most) recording (most.toNat + 1)).machine.pc_nonneg
  exact hshadows.sameEnd (hshadows.isOver_eq hpc (hp'.next_runWithin most recording))

/-- **Where a program ends, a matching one ends alike.** -/
theorem ends (h : c.Matches p p') (hp : p.LaidOut) (hp' : p'.LaidOut)
    (hends : p.Ends limit recording r) :
    ∃ r', p'.Ends limit recording r' ∧ Run.SameEnd c.place r r' := by
  have hsound := Run.Sound.initial hp
  cases limit with
  | some most =>
      have hrun := Program.ends_some_iff.mp hends
      subst hrun
      exact ⟨_, Program.ends_some_iff.mpr rfl, h.runWithin hp hp' most recording⟩
  | none =>
      obtain ⟨n, rfl, hover⟩ := Program.ends_none_iff.mp hends
      have hshadows := (Shadows.start h).proceed hsound none recording n
      have hpc := (hsound.proceed none recording n).machine.pc_nonneg
      obtain ⟨hover', hnext⟩ := hshadows.next_of_isOver hpc hover none recording
      rw [← Run.proceed_succ] at hover' hnext
      exact ⟨_, Program.ends_none_iff.mpr ⟨n + 1, rfl, hover'⟩,
        hnext.sameEnd (hover'.trans hover.symm)⟩

/-- **A program ends where a matching one does.** -/
theorem ends_of_ends (h : c.Matches p p') (hp : p.LaidOut) (hp' : p'.LaidOut)
    (hends : p'.Ends limit recording r') :
    ∃ r, p.Ends limit recording r ∧ Run.SameEnd c.place r r' := by
  cases limit with
  | some most =>
      have hrun := Program.ends_some_iff.mp hends
      subst hrun
      exact ⟨_, Program.ends_some_iff.mpr rfl, h.runWithin hp hp' most recording⟩
  | none =>
      obtain ⟨n, rfl, hover'⟩ := Program.ends_none_iff.mp hends
      have hshadows := (Shadows.start h).proceed (Run.Sound.initial hp) none recording n
      have hover := hshadows.isOver_of_isOver hover'
      exact ⟨_, Program.ends_none_iff.mpr ⟨n, rfl, hover⟩,
        hshadows.sameEnd (hover'.trans hover.symm)⟩

end Matches
end Correspondence
end RegisterMachine
