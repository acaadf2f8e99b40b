import Mathlib.Data.List.Basic
import RegisterMachine.Proofs.Tokens

/-!
# Where a line is cut

A comma or a blank cuts a line if an even number of quotes stands before it.  The places
of these cuts can be told from the line alone, and they say everything about its tokens:
what is left without them, and which lines have given tokens.

**Contents.**
* `Token.Cut`: the places where a text is cut.
* `Token.condensed`: a text without its cuts.

**Results.**
* `Token.marked_eq_zipIdx`: whether a character is quoted follows from the text before it.
* `Token.flatten_split`: the tokens of a text in a row.
* `Token.sequence_iff`: the lists of tokens, by their cuts and their quotes.
* `Token.split_exact`: which tokens a text has, and which texts have given tokens.
-/

namespace RegisterMachine
namespace Token

variable {t : Text} {ts : List Text} {k : Nat}

/-- A text is cut at a place that holds a comma or a blank, behind an even number of quotes. -/
def Cut (t : Text) (k : Nat) : Prop :=
  (t[k]?.any fun c => c == ',' || Text.isBlank c) = true ∧
    Even ((t.take k).count Operand.quote)

instance (t : Text) (k : Nat) : Decidable (Cut t k) :=
  inferInstanceAs (Decidable (_ ∧ _))

/-- A text without the characters at which it is cut. -/
def condensed (t : Text) : Text :=
  (t.zipIdx.filter fun m => ¬ Cut t m.2).map Prod.fst

theorem getElem?_marked (inside : Bool) (t : Text) (k : Nat) :
    (marked inside t)[k]? = t[k]?.map fun c => (c, stateAfter inside (t.take k)) := by
  induction t generalizing inside k with
  | nil =>
      rfl
  | cons c t ih =>
      cases k with
      | zero => rfl
      | succ k => exact ih (toggle inside c) k

/-- What is said of all marked characters is said of each place of the text. -/
theorem forall_mem_marked_iff {inside : Bool} {P : Char × Bool → Prop} :
    (∀ m ∈ marked inside t, P m) ↔
      ∀ k c, t[k]? = some c → P (c, stateAfter inside (t.take k)) := by
  constructor
  · intro h k c hc
    apply h
    apply List.mem_of_getElem? (i := k)
    rw [getElem?_marked, hc]
    rfl
  · intro h m hm
    obtain ⟨k, hk⟩ := List.getElem?_of_mem hm
    rw [getElem?_marked, Option.map_eq_some_iff] at hk
    obtain ⟨c, hc, rfl⟩ := hk
    exact h k c hc

/-- Whether a character is quoted follows from the text before it. -/
theorem marked_eq_zipIdx (inside : Bool) (t : Text) :
    marked inside t = t.zipIdx.map fun m => (m.1, stateAfter inside (t.take m.2)) := by
  apply List.ext_getElem?
  intro k
  rw [getElem?_marked, List.getElem?_map, List.getElem?_zipIdx, Option.map_map, Nat.zero_add]
  rfl

/-- A character separates tokens exactly if the text is cut there. -/
theorem separates_iff_cut {c : Char} (hc : t[k]? = some c) :
    separates (c, stateAfter false (t.take k)) = true ↔ Cut t k := by
  rw [Cut, ← stateAfter_eq_iff false, hc]
  simp only [separates, Bool.and_eq_true, Bool.not_eq_true', Option.any_some]
  exact and_comm

theorem unbroken_iff : Unbroken false t ↔ ∀ k, ¬ Cut t k := by
  rw [Unbroken, forall_mem_marked_iff]
  constructor
  · intro h k hcut
    obtain ⟨c, hc, -⟩ := (Option.any_eq_true _ _).mp hcut.1
    have hnot := h k c hc
    rw [(separates_iff_cut hc).mpr hcut] at hnot
    cases hnot
  · intro h k c hc
    rw [Bool.eq_false_iff, ne_eq, separates_iff_cut hc]
    exact h k

/-- The pieces of a list in a row are the list without the members it was cut at. -/
theorem flatten_splitOnP {α : Type} (p : α → Bool) (l : List α) :
    (l.splitOnP p).flatten = l.filter fun a => !p a := by
  induction l with
  | nil =>
      simp
  | cons a l ih =>
      rw [List.splitOnP_cons_eq_if_modifyHead]
      cases ha : p a with
      | true =>
          simp [ha, ih]
      | false =>
          obtain ⟨piece, pieces, hpieces⟩ :=
            List.exists_cons_of_ne_nil (List.splitOnP_ne_nil p l)
          rw [hpieces] at ih ⊢
          simp [ha, ← ih]

/-- **The tokens of a text in a row** are the text without its cuts. -/
theorem flatten_split (t : Text) : (split t).flatten = condensed t := by
  have hcut : ∀ m ∈ t.zipIdx, (!separates (m.1, stateAfter false (t.take m.2))) =
      decide (¬ Cut t m.2) := by
    intro m hm
    have hc : t[m.2]? = some m.1 := List.mk_mem_zipIdx_iff_getElem?.mp hm
    rw [Bool.eq_iff_iff, Bool.not_eq_true', Bool.eq_false_iff, ne_eq, separates_iff_cut hc,
      decide_eq_true_iff]
  rw [split_eq_splitOnP, ← List.map_flatten, List.flatten_filter_not_isEmpty, flatten_splitOnP,
    marked_eq_zipIdx, List.filter_map, List.map_map, condensed]
  exact congrArg _ (List.filter_congr hcut)

/-- The lists of tokens that a line can have, by their cuts and their quotes. -/
theorem sequence_iff : Sequence ts ↔
    (∀ token ∈ ts, token ≠ [] ∧ ∀ k, ¬ Cut token k) ∧
      ∀ token ∈ ts.dropLast, Even (token.count Operand.quote) := by
  induction ts with
  | nil =>
      simpa using Sequence.nil
  | cons t ts ih =>
      rw [sequence_cons_iff, ih, unbroken_iff, List.forall_mem_cons, stateAfter_eq_iff]
      by_cases hnil : ts = []
      · simp [hnil]
      · rw [List.dropLast_cons_of_ne_nil hnil, List.forall_mem_cons]
        tauto

/-- **Which tokens a text has, and which texts have given tokens.**  The tokens of a text are
not empty and cannot be cut, only the last one may have an odd number of quotes, and in a row
they are the text without its cuts.  Any such tokens are the tokens of the text in which each
of them but the first has commas and blanks in front of it; the first may have some, too. -/
theorem split_exact :
    (∀ t : Text,
      (∀ token ∈ split t, token ≠ [] ∧ ∀ k, ¬ Cut token k) ∧
      (∀ token ∈ (split t).dropLast, Even (token.count Operand.quote)) ∧
      (split t).flatten = condensed t) ∧
    (∀ parts : List Part,
      (∀ part ∈ parts, part.token ≠ [] ∧ ∀ k, ¬ Cut part.token k) →
      (∀ part ∈ parts.dropLast, Even (part.token.count Operand.quote)) →
      (∀ part ∈ parts, ∀ c ∈ part.gap, c = ',' ∨ Text.isBlank c = true) →
      (∀ part ∈ parts.tail, part.gap ≠ []) →
      split (parts.flatMap Part.text) = parts.map Part.token) := by
  constructor
  · intro t
    obtain ⟨htokens, heven⟩ := sequence_iff.mp (sequence_split t)
    exact ⟨htokens, heven, flatten_split t⟩
  · intro parts htokens heven hgaps hne
    apply split_parts _ _ hne
    · rw [sequence_iff, ← List.map_dropLast, List.forall_mem_map, List.forall_mem_map]
      exact ⟨htokens, heven⟩
    · intro part hpart c hc
      simpa [separates] using hgaps part hpart c hc

/-- A comma between quotes inside of a token, quotes next to each other, and a quote that is
left open. -/
theorem split_exact_open :
    split "\t, a'b, c'd,x''\n 'e; ,".toList =
        ["a'b, c'd".toList, "x''".toList, "'e; ,".toList] ∧
      condensed "\t, a'b, c'd,x''\n 'e; ,".toList = "a'b, c'dx'''e; ,".toList := by
  obtain ⟨parts, hdef⟩ : ∃ parts, parts =
      [Part.mk "\t, ".toList "a'b, c'd".toList, Part.mk ",".toList "x''".toList,
        Part.mk "\n ".toList "'e; ,".toList] := ⟨_, rfl⟩
  have hwhole : ∀ part ∈ parts, part.token ≠ [] ∧
      ∀ m ∈ marked false part.token, separates m = false := by
    subst hdef
    decide +kernel
  have htokens : ∀ part ∈ parts, part.token ≠ [] ∧ ∀ k, ¬ Cut part.token k := fun part hpart =>
    ⟨(hwhole part hpart).1, unbroken_iff.mp (hwhole part hpart).2⟩
  have heven : ∀ part ∈ parts.dropLast, Even (part.token.count Operand.quote) := by
    subst hdef
    decide +kernel
  have hgaps : parts.all (fun part => part.gap.all fun c => c == ',' || Text.isBlank c) = true := by
    subst hdef
    decide +kernel
  simp only [List.all_eq_true, Bool.or_eq_true, beq_iff_eq] at hgaps
  have hne : ∀ part ∈ parts.tail, part.gap ≠ [] := by
    subst hdef
    decide +kernel
  obtain ⟨htext, hparts⟩ := split_exact
  have hsplit := hparts parts htokens heven hgaps hne
  subst hdef
  refine ⟨hsplit, ?_⟩
  rw [← (htext _).2.2]
  exact congrArg List.flatten hsplit

end Token
end RegisterMachine
