import Mathlib.Algebra.Group.Nat.Even
import Mathlib.Data.List.TakeWhile
import RegisterMachine.Token

/-!
# Quotation

Whether a character of a line is quoted depends on the number of quotes before it.
The state of quotation behind a text follows from the text alone, so that a line can
be read in parts.

**Contents.**
* `Token.marked`: the characters of a line, each with the mark whether an odd
  number of quotes stands before it.
* `Token.stateAfter`: the state of quotation behind a text.
* `Token.Bare`: the texts in which no comment begins.

**Results.**
* `Token.uncomment_eq_takeWhile`: a comment begins where the marks say so.
* `Token.marked_append`: the marks of two texts in a row.
* `Token.stateAfter_eq_iff`: an even number of quotes leaves the state as it is.
* `Token.uncomment_of_bare`, `Token.uncomment_append_comment`: what is left of a line
  without its comment.
-/

namespace RegisterMachine
namespace Token

variable {inside : Bool} {s t w : Text}

/-- The state of quotation after a character. -/
def toggle (inside : Bool) (c : Char) : Bool :=
  if c = Operand.quote then !inside else inside

/-- The characters of a text, each with the state of quotation before it. -/
def marked (inside : Bool) : Text → List (Char × Bool)
  | [] => []
  | c :: cs => (c, inside) :: marked (toggle inside c) cs

/-- Whether a marked character begins a comment. -/
def opensComment (m : Char × Bool) : Bool :=
  m.1 == ';' && !m.2

@[simp] theorem marked_nil (inside : Bool) : marked inside [] = [] := by
  rfl

@[simp] theorem marked_cons (inside : Bool) (c : Char) (cs : Text) :
    marked inside (c :: cs) = (c, inside) :: marked (toggle inside c) cs := by
  rfl

/-- Marking keeps the characters. -/
@[simp] theorem map_fst_marked (inside : Bool) (t : Text) :
    (marked inside t).map Prod.fst = t := by
  induction t generalizing inside with
  | nil =>
      rfl
  | cons c cs ih =>
      simp [ih]

theorem toggle_quote (inside : Bool) : toggle inside Operand.quote = !inside := by
  simp [toggle]

theorem toggle_of_ne {c : Char} (inside : Bool) (h : c ≠ Operand.quote) :
    toggle inside c = inside := by
  simp [toggle, h]

theorem uncommentFrom_eq_takeWhile (inside : Bool) (t : Text) :
    uncommentFrom inside t =
      ((marked inside t).takeWhile fun m => !opensComment m).map Prod.fst := by
  induction t generalizing inside with
  | nil =>
      rfl
  | cons c t ih =>
      rw [uncommentFrom, marked_cons, List.takeWhile_cons]
      by_cases hquote : c = Operand.quote
      · have hkept : opensComment (c, inside) = false := by
          rw [hquote]
          rfl
        rw [if_pos hquote, hkept, hquote, toggle_quote, ih]
        rfl
      · have htest : (c == ';' && !inside) = opensComment (c, inside) := rfl
        rw [if_neg hquote, toggle_of_ne inside hquote, htest, ih]
        cases opensComment (c, inside) <;> rfl

/-- **A comment begins where the marks say so.** -/
theorem uncomment_eq_takeWhile (t : Text) :
    uncomment t = ((marked false t).takeWhile fun m => !opensComment m).map Prod.fst :=
  uncommentFrom_eq_takeWhile false t

/-- Only the end of a line is dropped. -/
theorem isPrefix_uncomment (t : Text) : uncomment t <+: t := by
  have hmarked := (List.takeWhile_prefix (fun m => !opensComment m)
    (l := marked false t)).map Prod.fst
  rw [map_fst_marked, ← uncomment_eq_takeWhile] at hmarked
  exact hmarked

/-- The state of quotation behind a text. -/
def stateAfter (inside : Bool) (t : Text) : Bool :=
  t.foldl toggle inside

@[simp] theorem stateAfter_nil (inside : Bool) : stateAfter inside [] = inside := by
  rfl

@[simp] theorem stateAfter_cons (inside : Bool) (c : Char) (t : Text) :
    stateAfter inside (c :: t) = stateAfter (toggle inside c) t := by
  rfl

theorem stateAfter_append (inside : Bool) (s t : Text) :
    stateAfter inside (s ++ t) = stateAfter (stateAfter inside s) t :=
  List.foldl_append

theorem marked_append (inside : Bool) (s t : Text) :
    marked inside (s ++ t) = marked inside s ++ marked (stateAfter inside s) t := by
  induction s generalizing inside with
  | nil =>
      rfl
  | cons c s ih =>
      simp [ih]

/-- An even number of quotes leaves the state of quotation as it is. -/
theorem stateAfter_eq_iff (inside : Bool) (t : Text) :
    stateAfter inside t = inside ↔ Even (t.count Operand.quote) := by
  induction t generalizing inside with
  | nil =>
      simp
  | cons c t ih =>
      by_cases hc : c = Operand.quote
      · subst hc
        rw [stateAfter_cons, toggle_quote, List.count_cons_self, Nat.even_add_one, ← ih (!inside)]
        cases stateAfter (!inside) t <;> cases inside <;> decide
      · rw [stateAfter_cons, toggle_of_ne inside hc, List.count_cons_of_ne hc, ih]

/-- The characters of an initial part of a marked text have the same marks again. -/
theorem marked_map_fst {l : List (Char × Bool)} (h : l <+: marked inside t) :
    marked inside (l.map Prod.fst) = l := by
  induction t generalizing inside l with
  | nil =>
      rw [List.prefix_nil.mp h]
      rfl
  | cons c t ih =>
      cases l with
      | nil =>
          rfl
      | cons first l =>
          obtain ⟨rfl, hrest⟩ := List.cons_prefix_cons.mp h
          simp [ih hrest]

theorem ne_quote_of_isBlank {c : Char} (h : Text.isBlank c = true) : c ≠ Operand.quote := by
  rintro rfl
  revert h
  decide

theorem stateAfter_of_isBlank (inside : Bool) (h : ∀ c ∈ w, Text.isBlank c = true) :
    stateAfter inside w = inside := by
  induction w with
  | nil =>
      rfl
  | cons c w ih =>
      rw [stateAfter_cons, toggle_of_ne inside (ne_quote_of_isBlank (h c List.mem_cons_self))]
      exact ih fun d hd => h d (List.mem_cons_of_mem _ hd)

/-- A text in which no comment begins, read in a state of quotation. -/
def Bare (inside : Bool) (t : Text) : Prop :=
  ∀ m ∈ marked inside t, opensComment m = false

theorem bare_append :
    Bare inside (s ++ t) ↔ Bare inside s ∧ Bare (stateAfter inside s) t := by
  rw [Bare, marked_append, List.forall_mem_append]
  rfl

theorem bare_of_not_mem (h : ';' ∉ t) : Bare inside t := by
  intro m hm
  have hmem : m.1 ∈ t := by
    rw [← map_fst_marked inside t]
    exact List.mem_map_of_mem hm
  have hne : m.1 ≠ ';' := by
    intro heq
    exact h (heq ▸ hmem)
  simp [opensComment, hne]

theorem bare_of_isBlank (h : ∀ c ∈ w, Text.isBlank c = true) : Bare inside w :=
  bare_of_not_mem fun hmem => absurd (h _ hmem) (by decide)

/-- No comment begins in what is left of a line. -/
theorem bare_uncomment (t : Text) : Bare false (uncomment t) := by
  rw [Bare, uncomment_eq_takeWhile, marked_map_fst (List.takeWhile_prefix _)]
  intro m hm
  simpa using List.mem_takeWhile_imp hm

theorem uncomment_of_bare (h : Bare false t) : uncomment t = t := by
  have hall : (marked false t).takeWhile (fun m => !opensComment m) = marked false t := by
    rw [List.takeWhile_eq_self_iff]
    intro m hm
    simp [h m hm]
  rw [uncomment_eq_takeWhile, hall, map_fst_marked]

/-- An unquoted semicolon and all that follows it is dropped. -/
theorem uncomment_append_comment (h : Bare false t) (hstate : stateAfter false t = false)
    (comment : Text) : uncomment (t ++ ';' :: comment) = t := by
  have hall : ∀ m ∈ marked false t, (!opensComment m) = true := by
    intro m hm
    simp [h m hm]
  rw [uncomment_eq_takeWhile, marked_append, hstate, marked_cons,
    List.takeWhile_append_of_pos hall, List.takeWhile_cons_of_neg (by decide), List.append_nil,
    map_fst_marked]

/-- A line in which a comment begins is read up to there, whatever follows. -/
theorem uncomment_append_of_not_bare (h : ¬ Bare false t) (s : Text) :
    uncomment (t ++ s) = uncomment t := by
  have hstops : ¬ ((marked false t).takeWhile fun m => !opensComment m).length =
      (marked false t).length := by
    intro hlength
    apply h
    have hall := List.takeWhile_eq_self_iff.mp
      ((List.takeWhile_prefix _).eq_of_length hlength)
    intro m hm
    simpa using hall m hm
  rw [uncomment_eq_takeWhile, marked_append, List.takeWhile_append, if_neg hstops,
    uncomment_eq_takeWhile]

end Token
end RegisterMachine
