import Mathlib.Data.Int.ModEq
import RegisterMachine.Proofs.Hazard

/-!
# Wrapping once

The registers hold words, and every result is wrapped as soon as it is written.  For sums,
differences and products this makes no difference: the words are those that come from
calculating with integers of any size and wrapping what is left at the end.

**Contents.**
* `Result.sequence`: one fallible step after another, with the place of the first that fails.
* `Table.wrapped`: registers with each integer wrapped to a word.
* `Instruction.calculate`: what an instruction does to registers that hold integers of any size.
* `Instruction.executeAll`, `Instruction.calculateAll`: a list of instructions in both ways.

**Results.**
* `Word.wrap_unique`: wrapping gives the one word that is congruent.
* `Result.Agree.sequence`: sequences agree if their steps do.
* `Instruction.Decoded.agree_calculate`: one instruction wraps what is calculated.
* `Instruction.executeAll_wrapped`: so does every list of instructions.
-/

namespace RegisterMachine
namespace Word

/-- **Wrapping gives the one word that is congruent** modulo `2 ^ 32`. -/
theorem wrap_unique {v w : Int} : InRange w ∧ w ≡ v [ZMOD 2 ^ 32] ↔ w = wrap v := by
  have hcongruent : wrap v % 2 ^ 32 = v % 2 ^ 32 := by
    rw [wrap_eq_bmod]
    exact Int.bmod_emod
  have hword := inRange_wrap v
  constructor
  · rintro ⟨hw, hmod⟩
    have hsame : w % 2 ^ 32 = wrap v % 2 ^ 32 := hmod.trans hcongruent.symm
    simp only [InRange, least, greatest] at hw hword
    omega
  · rintro rfl
    exact ⟨hword, hcongruent⟩

/-- An operation whose word depends on the words of its operands only. -/
def Respects (f : Int → Int → Int) : Prop :=
  ∀ a b, wrap (f (wrap a) (wrap b)) = wrap (f a b)

end Word

namespace Arithmetic

/-- The function of an operation that is a sum, a difference or a product. -/
def polynomial? : Arithmetic → Option (Int → Int → Int)
  | .add => some (· + ·)
  | .sub => some (· - ·)
  | .mul => some (· * ·)
  | .div => none

theorem apply_of_polynomial? {operation : Arithmetic} {f : Int → Int → Int}
    (h : operation.polynomial? = some f) (a b : Int) : operation.apply a b = .ok (f a b) := by
  cases operation <;> cases h <;> rfl

theorem respects_of_polynomial? {operation : Arithmetic} {f : Int → Int → Int}
    (h : operation.polynomial? = some f) : Word.Respects f := by
  intro a b
  cases operation <;> cases h <;> simp [Word.wrap_eq_bmod]

end Arithmetic

namespace Result

variable {ε α σ τ : Type}

/-- Takes one step after another; the first that fails is reported with its place. -/
def sequence (step : α → σ → Except ε σ) (place : Nat) : List α → σ → Except (Nat × ε) σ
  | [], s => .ok s
  | a :: as, s =>
      match step a s with
      | .error e => .error (place, e)
      | .ok s => sequence step (place + 1) as s

/-- A sequence fails at a member that its step fails on. -/
theorem exists_of_sequence_eq_error {step : α → σ → Except ε σ} {place k : Nat} {as : List α}
    {s : σ} {e : ε} (h : sequence step place as s = .error (k, e)) :
    ∃ a t, place ≤ k ∧ as[k - place]? = some a ∧ step a t = .error e := by
  induction as generalizing place s with
  | nil =>
      cases h
  | cons a as ih =>
      simp only [sequence] at h
      cases hstep : step a s with
      | error raised =>
          simp only [hstep, Except.error.injEq, Prod.mk.injEq] at h
          obtain ⟨rfl, rfl⟩ := h
          exact ⟨a, s, Nat.le_refl place, by simp, hstep⟩
      | ok next =>
          simp only [hstep] at h
          obtain ⟨b, t, hle, hb, ht⟩ := ih h
          have hplace : k - place = k - (place + 1) + 1 := by omega
          exact ⟨b, t, by omega, by rw [hplace, List.getElem?_cons_succ, hb], ht⟩

/-- **Sequences agree if their steps do.** -/
theorem Agree.sequence {R : σ → τ → Prop} {step : α → σ → Except ε σ}
    {step' : α → τ → Except ε τ} {as : List α}
    (h : ∀ a ∈ as, ∀ s t, R s t → Agree R (step a s) (step' a t)) (place : Nat) {s : σ} {t : τ}
    (hst : R s t) :
    Agree R (Result.sequence step place as s) (Result.sequence step' place as t) := by
  induction as generalizing place s t with
  | nil =>
      exact .ok hst
  | cons a as ih =>
      have hstep := h a List.mem_cons_self s t hst
      simp only [Result.sequence]
      generalize step a s = x at hstep
      generalize step' a t = y at hstep
      cases hstep with
      | ok hnext => exact ih (fun b hb => h b (List.mem_cons_of_mem _ hb)) (place + 1) hnext
      | error e => exact .error (place, e)

end Result

namespace Table

/-- Registers with each integer wrapped to a word. -/
def wrapped (t : Table Int) : Table Int :=
  t.map fun entry => (entry.1, Word.wrap entry.2)

theorem get?_wrapped (t : Table Int) (name : Text) :
    t.wrapped.get? name = (t.get? name).map Word.wrap := by
  induction t with
  | nil =>
      rfl
  | cons entry rest ih =>
      rw [wrapped, List.map_cons, get?_cons, get?_cons]
      split
      · rfl
      · exact ih

theorem wrapped_put (t : Table Int) (name : Text) (value : Int) :
    (t.put name value).wrapped = t.wrapped.put name (Word.wrap value) := by
  induction t with
  | nil =>
      rfl
  | cons entry rest ih =>
      by_cases h : entry.1 = name
      · simp [wrapped, put, h]
      · simp only [wrapped] at ih
        simp [wrapped, put, h, ih]

theorem wrapped_of_inRange {t : Table Int}
    (h : ∀ name value, (name, value) ∈ t → Word.InRange value) : t.wrapped = t := by
  have hsame : ∀ entry ∈ t, (entry.1, Word.wrap entry.2) = id entry := by
    rintro ⟨name, value⟩ hmem
    rw [Word.wrap_of_inRange (h name value hmem), id]
  rw [wrapped, List.map_congr_left hsame, List.map_id]

/-- The value of an operand among registers that hold integers of any size. -/
def valueOf (t : Table Int) (operand : Operand) : Except Fault Int :=
  ({ registers := t } : Machine).eval operand

/-- Replaces a register by a function of its own value and that of an operand. -/
def update (t : Table Int) (f : Int → Int → Int) (name : Text) (source : Operand) :
    Except Fault (Table Int) := do
  let lhs ← t.valueOf (.register name)
  let rhs ← t.valueOf source
  return t.put name (f lhs rhs)

end Table

/-- The machine that an attempt leaves, or its fault if it failed. -/
def Attempt.result (a : Attempt) : Except Fault Machine :=
  match a.fault with
  | none => .ok a.machine
  | some fault => .error fault

/-- The operations that write a sum, a difference, a product or a value as it is. -/
def Opcode.polynomial : List Opcode :=
  [.mov, .inc, .dec, .arithmetic .add, .arithmetic .sub, .arithmetic .mul]

namespace Instruction

/-- What an instruction does to registers that hold integers of any size, if its operation
is one of `Opcode.polynomial`. -/
def calculate (i : Instruction) (t : Table Int) : Except Fault (Table Int) :=
  match i.opcode, i.operands with
  | .mov, [.register name, source] => do
      let value ← t.valueOf source
      return t.put name value
  | .inc, [.register name] => t.update (· + ·) name (.integer 1)
  | .dec, [.register name] => t.update (· - ·) name (.integer 1)
  | .arithmetic operation, [.register name, source] =>
      match operation.polynomial? with
      | some f => t.update f name source
      | none => .ok t
  | _, _ => .ok t

/-- Executes instructions in their order, without regard to the lines that they stand on. -/
def executeAll (p : Program) (is : List Instruction) (m : Machine) :
    Except (Nat × Fault) Machine :=
  Result.sequence (fun i m => (i.execute p m).result) 0 is m

/-- Calculates with integers of any size what instructions do to registers, in their order. -/
def calculateAll (is : List Instruction) (t : Table Int) : Except (Nat × Fault) (Table Int) :=
  Result.sequence calculate 0 is t

end Instruction

namespace Table

variable {t : Table Int} {m : Machine} {source : Operand}

/-- A machine that holds the words of some registers reads the words of their values. -/
theorem agree_valueOf (hm : m.registers = t.wrapped) (hsource : Slot.value.Takes source)
    (hwords : ∀ n, source = .integer n → Word.InRange n) :
    Result.Agree (fun value word => word = Word.wrap value) (t.valueOf source)
      (m.eval source) := by
  cases hsource with
  | readInteger n =>
      exact .ok (Word.wrap_of_inRange (hwords n rfl)).symm
  | readRegister name =>
      have hword : m.registers.get? name = (t.get? name).map Word.wrap := by
        rw [hm, get?_wrapped]
      cases hname : t.get? name with
      | none =>
          rw [hname] at hword
          rw [valueOf, Machine.eval, Machine.eval, Machine.read_of_get?_none hword,
            Machine.read_of_get?_none hname]
          exact .error _
      | some value =>
          rw [hname] at hword
          rw [valueOf, Machine.eval, Machine.eval, Machine.read_of_get?_some hword,
            Machine.read_of_get?_some hname]
          exact .ok rfl

theorem exists_unset_of_valueOf (hsource : Slot.value.Takes source) {fault : Fault}
    (h : t.valueOf source = .error fault) : ∃ name, fault = .unsetRegister name := by
  rcases Machine.eval_cases { registers := t } hsource with
    ⟨name, -, hunset⟩ | ⟨value, -, -, hset⟩
  · exact ⟨name, Except.error.inj (h.symm.trans hunset)⟩
  · cases h.symm.trans hset

theorem exists_unset_of_update {f : Int → Int → Int} {name : Text}
    (hsource : Slot.value.Takes source) {fault : Fault}
    (h : t.update f name source = .error fault) : ∃ name, fault = .unsetRegister name := by
  simp only [update, Result.bind_eq_error] at h
  rcases h with h | ⟨lhs, -, h | ⟨rhs, -, h⟩⟩
  · exact exists_unset_of_valueOf (.readRegister name) h
  · exact exists_unset_of_valueOf hsource h
  · cases h

/-- Combining words gives the word of what is combined. -/
theorem agree_update {operation : Arithmetic} {f : Int → Int → Int}
    (hf : operation.polynomial? = some f) (hm : m.registers = t.wrapped)
    (name : Text) (hsource : Slot.value.Takes source)
    (hwords : ∀ n, source = .integer n → Word.InRange n) :
    Result.Agree (fun t m => m.registers = t.wrapped) (t.update f name source)
      ((m.combine operation (.register name) source).map Machine.tick) := by
  have hlhs : Result.Agree _ (t.valueOf (.register name)) (m.read name) :=
    agree_valueOf hm (.readRegister name) (by simp)
  have hrhs := agree_valueOf hm hsource hwords
  have hcombine : m.combine operation (.register name) source = (do
      let lhs ← m.read name
      let rhs ← m.eval source
      return (m.set name (f lhs rhs)).advance) := by
    simp only [Machine.combine, Operand.name, Arithmetic.apply_of_polynomial? hf]
    rfl
  rw [hcombine, update]
  generalize t.valueOf (.register name) = value at hlhs ⊢
  generalize m.read name = word at hlhs ⊢
  generalize t.valueOf source = value' at hrhs ⊢
  generalize m.eval source = word' at hrhs ⊢
  cases hlhs with
  | error fault =>
      exact .error fault
  | ok hlhs =>
      cases hrhs with
      | error fault =>
          exact .error fault
      | ok hrhs =>
          refine .ok ?_
          show m.registers.put name (Word.wrap (f _ _)) = _
          rw [wrapped_put, hlhs, hrhs, Arithmetic.respects_of_polynomial? hf, hm]

/-- Assigning a word assigns the word of the value. -/
theorem agree_assign (hm : m.registers = t.wrapped) (name : Text)
    (hsource : Slot.value.Takes source) (hwords : ∀ n, source = .integer n → Word.InRange n) :
    Result.Agree (fun t m => m.registers = t.wrapped)
      (do let value ← t.valueOf source; return t.put name value)
      ((m.assign (.register name) source).map Machine.tick) := by
  have hvalue := agree_valueOf hm hsource hwords
  simp only [Machine.assign, Operand.name]
  generalize t.valueOf source = value at hvalue ⊢
  generalize m.eval source = word at hvalue ⊢
  cases hvalue with
  | error fault =>
      exact .error fault
  | @ok value word hword =>
      refine .ok ?_
      have hrange := Word.inRange_wrap value
      show m.registers.put name (Word.wrap word) = _
      rw [wrapped_put, hword, Word.wrap_of_inRange hrange, hm]

end Table

theorem Attempt.result_counted_ofResult (m : Machine) (x : Except Fault Machine) :
    (ofResult m x).counted.result = x.map Machine.tick := by
  cases x <;> rfl

namespace Instruction

variable {i : Instruction} {is : List Instruction} {t : Table Int} {m : Machine}

/-- **One instruction wraps what is calculated.** -/
theorem Decoded.agree_calculate (hi : i.Decoded) (hopcode : i.opcode ∈ Opcode.polynomial)
    (hm : m.registers = t.wrapped) (p : Program) :
    Result.Agree (fun t m => m.registers = t.wrapped) (i.calculate t) (i.execute p m).result := by
  have hform := hi.form
  have hwords := hi.words
  rw [execute]
  generalize i.action = action at hform ⊢
  cases hform with
  | @mov name source hmov hoperands hsource =>
      rw [hoperands] at hwords
      simp only [calculate, hmov, hoperands, Action.perform, Attempt.result_counted_ofResult]
      exact Table.agree_assign hm name hsource fun n hn => hwords n (by simp [hn])
  | @inc name hinc hoperands =>
      simp only [calculate, hinc, hoperands, Action.perform, Attempt.result_counted_ofResult]
      exact Table.agree_update rfl hm name (.readInteger 1) fun n hn => by cases hn; decide
  | @dec name hdec hoperands =>
      simp only [calculate, hdec, hoperands, Action.perform, Attempt.result_counted_ofResult]
      exact Table.agree_update rfl hm name (.readInteger 1) fun n hn => by cases hn; decide
  | @arithmetic operation name source harithmetic hoperands hsource =>
      rw [hoperands] at hwords
      cases hf : operation.polynomial? with
      | none =>
          cases operation <;> simp_all [Opcode.polynomial, Arithmetic.polynomial?]
      | some f =>
          simp only [calculate, harithmetic, hoperands, hf, Action.perform,
            Attempt.result_counted_ofResult]
          exact Table.agree_update hf hm name hsource fun n hn => hwords n (by simp [hn])
  | _ hother =>
      simp [hother, Opcode.polynomial] at hopcode

/-- What is calculated fails at unset registers only. -/
theorem Decoded.exists_unset_of_calculate (hi : i.Decoded) {fault : Fault}
    (h : i.calculate t = .error fault) : ∃ name, fault = .unsetRegister name := by
  have hform := hi.form
  generalize i.action = action at hform
  cases hform with
  | mov hmov hoperands hsource =>
      simp only [calculate, hmov, hoperands, Result.bind_eq_error] at h
      rcases h with h | ⟨value, -, h⟩
      · exact Table.exists_unset_of_valueOf hsource h
      · cases h
  | inc hinc hoperands | dec hinc hoperands =>
      simp only [calculate, hinc, hoperands] at h
      exact Table.exists_unset_of_update (.readInteger 1) h
  | arithmetic harithmetic hoperands hsource =>
      simp only [calculate, harithmetic, hoperands] at h
      split at h
      · exact Table.exists_unset_of_update hsource h
      · cases h
  | _ hother =>
      simp [calculate, hother] at h

/-- **Wrapping at every step is wrapping once at the end.**  A list of instructions that move,
add, subtract and multiply fails where calculating with integers of any size fails, and at the
same unset register; otherwise its registers are the calculated ones in the same order, each
wrapped to the one word that is congruent to it. -/
theorem executeAll_wrapped (hread : ∀ i ∈ is, ∃ text, ofText text = .ok i)
    (hopcode : ∀ i ∈ is, i.opcode ∈ Opcode.polynomial) (p : Program) (m : Machine)
    (hwords : ∀ name value, (name, value) ∈ m.registers → Word.InRange value) :
    (∀ t, calculateAll is m.registers = .ok t →
      ∃ after, executeAll p is m = .ok after ∧
        after.registers = t.map fun entry => (entry.1, Word.wrap entry.2)) ∧
    (∀ k fault, calculateAll is m.registers = .error (k, fault) →
      executeAll p is m = .error (k, fault) ∧ ∃ i name, is[k]? = some i ∧
        fault = .unsetRegister name) ∧
    ∀ v w, Word.InRange w ∧ w ≡ v [ZMOD 2 ^ 32] ↔ w = Word.wrap v := by
  have hagree : Result.Agree (fun t m => m.registers = t.wrapped)
      (calculateAll is m.registers) (executeAll p is m) := by
    apply Result.Agree.sequence
    · intro i hi t m hm
      obtain ⟨text, htext⟩ := hread i hi
      exact (decoded_ofText htext).agree_calculate (hopcode i hi) hm p
    · exact (Table.wrapped_of_inRange hwords).symm
  refine ⟨?_, ?_, fun v w => Word.wrap_unique⟩
  · intro t ht
    rw [ht] at hagree
    generalize executeAll p is m = x at hagree ⊢
    cases hagree with
    | ok hafter => exact ⟨_, rfl, hafter⟩
  · intro k fault hfault
    obtain ⟨i, t, -, hi, hstep⟩ := Result.exists_of_sequence_eq_error hfault
    obtain ⟨text, htext⟩ := hread i (List.mem_of_getElem? hi)
    obtain ⟨name, hname⟩ := (decoded_ofText htext).exists_unset_of_calculate hstep
    refine ⟨?_, i, name, hi, hname⟩
    rw [hfault] at hagree
    generalize executeAll p is m = x at hagree ⊢
    cases hagree with
    | error => rfl

/-- Two squarings and a difference that are no words by far, and a sum with a register that is
not there. -/
theorem executeAll_wrapped_squares :
    ∃ is sum m, m.registers = [(['b'], -5), (['a'], 65537)] ∧
      calculateAll is m.registers =
        .ok [(['b'], -18447869999386460167), (['a'], 18447869999386460161)] ∧
      (∃ after, executeAll {} is m = .ok after ∧
        after.registers = [(['b'], -262151), (['a'], 262145)]) ∧
      executeAll {} (is ++ [sum]) m = .error (4, .unsetRegister ['c']) := by
  obtain ⟨is, his⟩ : ∃ is, is =
      [({ opcode := .arithmetic .mul, operands := [.register ['a'], .register ['a']],
          token := "mul".toList, text := "mul a,a".toList } : Instruction),
        { opcode := .arithmetic .mul, operands := [.register ['a'], .register ['a']],
          token := "mul".toList, text := "mul a,a".toList },
        { opcode := .arithmetic .sub, operands := [.register ['b'], .register ['a']],
          token := "sub".toList, text := "sub b,a".toList },
        { opcode := .dec, operands := [.register ['b']],
          token := "dec".toList, text := "dec b".toList }] := ⟨_, rfl⟩
  obtain ⟨sum, hsum⟩ : ∃ sum, sum =
      ({ opcode := .arithmetic .add, operands := [.register ['a'], .register ['c']],
         token := "add".toList, text := "add a,c".toList } : Instruction) := ⟨_, rfl⟩
  have hread : ∀ i ∈ is ++ [sum], ∃ text, ofText text = .ok i := by
    have htexts : ["mul a,a", "mul a,a", "sub b,a", "dec b", "add a,c"].mapM
        (fun text => ofText text.toList) = .ok (is ++ [sum]) := by
      subst his hsum
      decide +kernel
    intro i hi
    obtain ⟨text, htext⟩ := Result.exists_of_forall₂ (Result.forall₂_of_mapM htexts) hi
    exact ⟨text.toList, htext⟩
  have hopcode : ∀ i ∈ is ++ [sum], i.opcode ∈ Opcode.polynomial := by
    subst his hsum
    decide
  have hwords : ∀ name value, (name, value) ∈ [(['b'], -5), (['a'], 65537)] →
      Word.InRange value := by
    simp only [List.mem_cons, Prod.mk.injEq, List.not_mem_nil, or_false]
    rintro _ _ (⟨rfl, rfl⟩ | ⟨rfl, rfl⟩) <;> decide
  have hvalues : calculateAll is [(['b'], -5), (['a'], 65537)] =
      .ok [(['b'], -18447869999386460167), (['a'], 18447869999386460161)] := by
    subst his
    decide +kernel
  have hunset : calculateAll (is ++ [sum]) [(['b'], -5), (['a'], 65537)] =
      .error (4, .unsetRegister ['c']) := by
    subst his hsum
    decide +kernel
  refine ⟨is, sum, { registers := [(['b'], -5), (['a'], 65537)] }, rfl, hvalues, ?_, ?_⟩
  · obtain ⟨hwraps, -, -⟩ := executeAll_wrapped
      (fun i hi => hread i (List.mem_append_left _ hi))
      (fun i hi => hopcode i (List.mem_append_left _ hi)) {}
      { registers := [(['b'], -5), (['a'], 65537)] } hwords
    obtain ⟨after, hafter, hregisters⟩ := hwraps _ hvalues
    exact ⟨after, hafter, hregisters.trans (by decide)⟩
  · obtain ⟨-, hfails, -⟩ := executeAll_wrapped hread hopcode {}
      { registers := [(['b'], -5), (['a'], 65537)] } hwords
    exact (hfails 4 _ hunset).1

end Instruction
end RegisterMachine
