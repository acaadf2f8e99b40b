import Mathlib.Data.List.Forall2

/-!
# Computations that may fail

A chain of fallible computations succeeds exactly when each of them does.

**Contents.**
* `Result.error?`: the error of a computation that fails.
* `Result.Agree`: two computations that fail alike or have related results.

**Results.**
* `Result.bind_eq_ok`, `Result.map_eq_ok`: how a chain succeeds.
* `Result.bind_eq_error`: how it fails.
* `Result.forall₂_of_mapM`, `Result.mapM_of_forall₂`: how a computation over a list succeeds.
* `Result.error?_mapM`: it fails with the error of the first member that fails.
* `Result.Agree.bind`: chains agree if their links do.
-/

namespace RegisterMachine
namespace Result

variable {ε α β γ δ : Type}

theorem bind_eq_ok {x : Except ε α} {f : α → Except ε β} {b : β} :
    (x >>= f) = .ok b ↔ ∃ a, x = .ok a ∧ f a = .ok b := by
  cases x <;> simp [bind, Except.bind]

theorem bind_eq_error {x : Except ε α} {f : α → Except ε β} {e : ε} :
    (x >>= f) = .error e ↔ x = .error e ∨ ∃ a, x = .ok a ∧ f a = .error e := by
  cases x <;> simp [bind, Except.bind]

theorem map_eq_ok {x : Except ε α} {f : α → β} {b : β} :
    x.map f = .ok b ↔ ∃ a, x = .ok a ∧ f a = b := by
  cases x <;> simp [Except.map]

/-- The error of a computation that fails. -/
def error? : Except ε α → Option ε
  | .ok _ => none
  | .error e => some e

theorem error?_eq_some_iff {x : Except ε α} {e : ε} : error? x = some e ↔ x = .error e := by
  cases x <;> simp [error?]

theorem error?_eq_none_iff {x : Except ε α} : error? x = none ↔ ∃ a, x = .ok a := by
  cases x <;> simp [error?]

@[simp] theorem error?_map (x : Except ε α) (f : α → β) : error? (x.map f) = error? x := by
  cases x <;> rfl

/-- A computation over a list fails on the first member that it fails on. -/
theorem error?_mapM (f : α → Except ε β) (l : List α) :
    error? (l.mapM f) = l.findSome? fun a => error? (f a) := by
  induction l with
  | nil =>
      rfl
  | cons a l ih =>
      rw [List.mapM_cons, List.findSome?_cons, ← ih]
      cases f a with
      | error e =>
          rfl
      | ok b =>
          cases l.mapM f <;> rfl

/-- A computation over a list succeeds on each of its members. -/
theorem forall₂_of_mapM {f : α → Except ε β} {l : List α} {results : List β}
    (h : l.mapM f = .ok results) : List.Forall₂ (fun a b => f a = .ok b) l results := by
  induction l generalizing results with
  | nil =>
      cases h
      exact .nil
  | cons a l ih =>
      rw [List.mapM_cons, bind_eq_ok] at h
      obtain ⟨first, hfirst, h⟩ := h
      obtain ⟨others, hothers, h⟩ := bind_eq_ok.mp h
      cases h
      exact .cons hfirst (ih hothers)

/-- A computation that succeeds on each member of a list succeeds on the list. -/
theorem mapM_of_forall₂ {f : α → Except ε β} {l : List α} {results : List β}
    (h : List.Forall₂ (fun a b => f a = .ok b) l results) : l.mapM f = .ok results := by
  induction h with
  | nil =>
      rfl
  | cons hfirst _ ih =>
      rw [List.mapM_cons, hfirst, ih]
      rfl

/-- Every member of the second list is related to one of the first. -/
theorem exists_of_forall₂ {R : α → β → Prop} {l : List α} {results : List β} {b : β}
    (h : List.Forall₂ R l results) (hb : b ∈ results) : ∃ a, R a b := by
  induction h with
  | nil =>
      simp at hb
  | cons hfirst _ ih =>
      rcases List.mem_cons.mp hb with rfl | hb
      · exact ⟨_, hfirst⟩
      · exact ih hb

/-- A result is found in the place of the member that it comes from. -/
theorem getElem?_eq_some_iff {f : α → Except ε β} {l : List α} {results : List β}
    (h : List.Forall₂ (fun a b => f a = .ok b) l results) {k : Nat} {b : β} :
    results[k]? = some b ↔ ∃ a, l[k]? = some a ∧ f a = .ok b := by
  induction h generalizing k with
  | nil =>
      simp
  | @cons a first _ _ hfirst _ ih =>
      cases k with
      | zero =>
          simp [hfirst]
      | succ k =>
          simpa using ih

/-- Two computations that fail alike or have related results. -/
inductive Agree (R : α → β → Prop) : Except ε α → Except ε β → Prop
  | ok {a : α} {b : β} (h : R a b) : Agree R (.ok a) (.ok b)
  | error (e : ε) : Agree R (.error e) (.error e)

namespace Agree

theorem refl (x : Except ε α) : Agree Eq x x := by
  cases x with
  | ok a => exact .ok rfl
  | error e => exact .error e

theorem bind {R : α → β → Prop} {S : γ → δ → Prop} {x : Except ε α} {y : Except ε β}
    {f : α → Except ε γ} {g : β → Except ε δ} (h : Agree R x y)
    (hfg : ∀ a b, R a b → Agree S (f a) (g b)) : Agree S (x >>= f) (y >>= g) := by
  cases h with
  | ok h => exact hfg _ _ h
  | error e => exact .error e

/-- Chains that begin alike agree if they go on so. -/
theorem bind_same {S : γ → δ → Prop} (x : Except ε α) {f : α → Except ε γ}
    {g : α → Except ε δ} (hfg : ∀ a, Agree S (f a) (g a)) : Agree S (x >>= f) (x >>= g) := by
  refine (refl x).bind ?_
  rintro a _ rfl
  exact hfg a

end Agree
end Result
end RegisterMachine
