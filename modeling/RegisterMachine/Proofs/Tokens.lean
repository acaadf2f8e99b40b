import RegisterMachine.Proofs.Quotation

/-!
# The tokens of a line

A line is cut at its unquoted commas and blanks.  Each cut stands outside quotation,
so that a token can be read on its own: it begins outside quotation, and only the last
token of a line can leave a quote open.

**Contents.**
* `Token.separates`: the marked characters at which a line is cut.
* `Token.Unbroken`: the texts without an unquoted comma or blank.
* `Token.Sequence`: the lists of tokens that a line can have.
* `Token.Part`: a token with the commas and blanks in front of it.

**Results.**
* `Token.split_eq_splitOnP`: a line is cut where the marks say so.
* `Token.split_append_cons`: a line is cut at a separator.
* `Token.cut_induction`: induction over the pieces between the separators.
* `Token.sequence_split`: the tokens of every line form a sequence.
* `Token.split_parts`: tokens in a sequence are found again when they are put together.
-/

namespace RegisterMachine
namespace Token

variable {inside : Bool} {s t : Text} {ts : List Text}

/-- Whether a marked character separates tokens. -/
def separates (m : Char × Bool) : Bool :=
  !m.2 && (m.1 == ',' || Text.isBlank m.1)

/-- The characters of a token that was begun stand before the first piece of what follows. -/
theorem splitFrom_eq_splitOnP (inside : Bool) (current t : Text) :
    splitFrom inside current t =
      ((((marked inside t).splitOnP separates).map fun piece => piece.map Prod.fst).modifyHead
        (current.reverse ++ ·)).filter fun piece => !piece.isEmpty := by
  induction t generalizing inside current with
  | nil =>
      by_cases hnil : current = []
      · simp [splitFrom, finished, hnil]
      · simp [splitFrom, finished, hnil]
  | cons c t ih =>
      obtain ⟨piece, pieces, hpieces⟩ := List.exists_cons_of_ne_nil
        (List.splitOnP_ne_nil separates (marked (toggle inside c) t))
      rw [splitFrom, marked_cons, List.splitOnP_cons_eq_if_modifyHead]
      by_cases hquote : c = Operand.quote
      · have hkept : separates (c, inside) = false := by
          rw [hquote]
          cases inside <;> decide
        subst hquote
        rw [toggle_quote] at hpieces ⊢
        simp [hkept, ih, hpieces]
      · rw [toggle_of_ne inside hquote] at hpieces ⊢
        have htest : (!inside && (c == ',' || Text.isBlank c)) = separates (c, inside) := rfl
        rw [if_neg hquote, htest]
        cases separates (c, inside) with
        | true =>
            by_cases hnil : current = []
            · simp [finished, hnil, ih, hpieces]
            · simp [finished, hnil, ih, hpieces]
        | false =>
            simp [ih, hpieces]

/-- **A line is cut where the marks say so**, and the pieces with characters are its tokens. -/
theorem split_eq_splitOnP (t : Text) :
    split t = (((marked false t).splitOnP separates).filter fun piece => !piece.isEmpty).map
      fun piece => piece.map Prod.fst := by
  obtain ⟨piece, pieces, hpieces⟩ := List.exists_cons_of_ne_nil
    (List.splitOnP_ne_nil separates (marked false t))
  rw [split, splitFrom_eq_splitOnP, hpieces, List.map_cons, List.modifyHead_cons,
    List.reverse_nil, List.nil_append, ← List.map_cons, List.filter_map]
  simp only [Function.comp_def, List.isEmpty_map]

/-- A text without an unquoted comma or blank, read in a state of quotation. -/
def Unbroken (inside : Bool) (t : Text) : Prop :=
  ∀ m ∈ marked inside t, separates m = false

theorem unbroken_nil (inside : Bool) : Unbroken inside [] := by
  simp [Unbroken]

theorem unbroken_cons {c : Char} :
    Unbroken inside (c :: t) ↔
      separates (c, inside) = false ∧ Unbroken (toggle inside c) t := by
  simp [Unbroken]

theorem unbroken_append :
    Unbroken inside (s ++ t) ↔ Unbroken inside s ∧ Unbroken (stateAfter inside s) t := by
  rw [Unbroken, marked_append, List.forall_mem_append]
  rfl

theorem unbroken_quote (inside : Bool) : Unbroken inside [Operand.quote] := by
  rw [unbroken_cons]
  exact ⟨by cases inside <;> decide, unbroken_nil _⟩

theorem unbroken_of_plain (h : ∀ c ∈ t, c ≠ Operand.quote ∧ separates (c, false) = false) :
    Unbroken false t ∧ stateAfter false t = false := by
  induction t with
  | nil =>
      exact ⟨unbroken_nil false, rfl⟩
  | cons c t ih =>
      obtain ⟨hne, hc⟩ := h c List.mem_cons_self
      rw [unbroken_cons, stateAfter_cons, toggle_of_ne false hne]
      obtain ⟨hunbroken, hclosed⟩ := ih fun d hd => h d (List.mem_cons_of_mem _ hd)
      exact ⟨⟨hc, hunbroken⟩, hclosed⟩

/-- The lists of tokens that a line can have: none is empty or can be cut, and only the last
one may leave a quote open. -/
inductive Sequence : List Text → Prop
  | nil : Sequence []
  | last {t : Text} (hne : t ≠ []) (hunbroken : Unbroken false t) : Sequence [t]
  | cons {t : Text} {ts : List Text} (hne : t ≠ []) (hunbroken : Unbroken false t)
      (hclosed : stateAfter false t = false) (hts : Sequence ts) : Sequence (t :: ts)

theorem sequence_cons_iff :
    Sequence (t :: ts) ↔
      t ≠ [] ∧ Unbroken false t ∧ (ts ≠ [] → stateAfter false t = false) ∧ Sequence ts := by
  constructor
  · intro h
    cases h with
    | last hne hunbroken => exact ⟨hne, hunbroken, fun hnil => absurd rfl hnil, .nil⟩
    | cons hne hunbroken hclosed hts => exact ⟨hne, hunbroken, fun _ => hclosed, hts⟩
  · rintro ⟨hne, hunbroken, hclosed, hts⟩
    by_cases hnil : ts = []
    · rw [hnil]
      exact .last hne hunbroken
    · exact .cons hne hunbroken (hclosed hnil) hts

theorem ne_quote_of_separates {c : Char} (hc : separates (c, false) = true) :
    c ≠ Operand.quote := by
  rintro rfl
  revert hc
  decide

/-- **A line is cut at a separator** that stands outside quotation. -/
theorem split_append_cons {c : Char} (hclosed : stateAfter false s = false)
    (hc : separates (c, false) = true) (t : Text) :
    split (s ++ c :: t) = split s ++ split t := by
  rw [split_eq_splitOnP, split_eq_splitOnP, split_eq_splitOnP, marked_append, hclosed,
    marked_cons, toggle_of_ne false (ne_quote_of_separates hc),
    List.splitOnP_append_cons _ _ hc, List.filter_append, List.map_append]

theorem split_of_unbroken (hne : t ≠ []) (h : Unbroken false t) : split t = [t] := by
  have hmarked : marked false t ≠ [] := by
    intro hnil
    apply hne
    rw [← map_fst_marked false t, hnil]
    rfl
  rw [split_eq_splitOnP, List.splitOnP_eq_singleton h]
  simp [hmarked]

/-- A text is unbroken, or it has a first separator, which stands outside quotation. -/
theorem unbroken_or_exists (inside : Bool) (t : Text) :
    Unbroken inside t ∨
    ∃ s c rest, t = s ++ c :: rest ∧ Unbroken inside s ∧ stateAfter inside s = false ∧
      separates (c, false) = true := by
  induction t generalizing inside with
  | nil =>
      exact .inl (unbroken_nil inside)
  | cons c t ih =>
      cases hc : separates (c, inside) with
      | true =>
          have hinside : inside = false := by
            cases inside with
            | true => simp [separates] at hc
            | false => rfl
          subst hinside
          exact .inr ⟨[], c, t, rfl, unbroken_nil false, rfl, hc⟩
      | false =>
          rcases ih (toggle inside c) with hunbroken | ⟨s, d, rest, rfl, hs, hstate, hd⟩
          · exact .inl (unbroken_cons.mpr ⟨hc, hunbroken⟩)
          · exact .inr ⟨c :: s, d, rest, rfl, unbroken_cons.mpr ⟨hc, hs⟩, hstate, hd⟩

/-- What holds of the texts that are one token at most holds of all texts, if cutting at the
first separator keeps it. -/
theorem cut_induction {motive : Text → Prop} (nil : motive [])
    (whole : ∀ t, t ≠ [] → Unbroken false t → motive t)
    (cut : ∀ s c rest, Unbroken false s → stateAfter false s = false →
      separates (c, false) = true → motive s → motive rest → motive (s ++ c :: rest))
    (t : Text) : motive t := by
  have hwhole : ∀ t, Unbroken false t → motive t := by
    intro t hunbroken
    by_cases hnil : t = []
    · rw [hnil]
      exact nil
    · exact whole t hnil hunbroken
  rcases unbroken_or_exists false t with hunbroken | ⟨s, c, rest, ht, hs, hclosed, hc⟩
  · exact hwhole t hunbroken
  · rw [ht]
    exact cut s c rest hs hclosed hc (hwhole s hs) (cut_induction nil whole cut rest)
termination_by t.length
decreasing_by
  simp [ht]
  omega

/-- **The tokens of every line form a sequence.** -/
theorem sequence_split (t : Text) : Sequence (split t) := by
  induction t using cut_induction with
  | nil =>
      exact .nil
  | whole t hne hunbroken =>
      rw [split_of_unbroken hne hunbroken]
      exact .last hne hunbroken
  | cut s c rest hs hclosed hc _ hrest =>
      rw [split_append_cons hclosed hc]
      by_cases hnil : s = []
      · rw [hnil]
        exact hrest
      · rw [split_of_unbroken hnil hs]
        exact .cons hnil hs hclosed hrest

/-- A token with the commas and blanks in front of it. -/
structure Part where
  gap : Text := []
  token : Text
deriving DecidableEq, Repr

/-- A token behind its commas and blanks. -/
def Part.text (part : Part) : Text :=
  part.gap ++ part.token

/-- Separators in front of a text do not count. -/
theorem split_append_of_separates (h : ∀ c ∈ s, separates (c, false) = true) (t : Text) :
    split (s ++ t) = split t := by
  induction s with
  | nil =>
      rfl
  | cons c s ih =>
      have hcut : split (c :: (s ++ t)) = split [] ++ split (s ++ t) :=
        @split_append_cons [] c rfl (h c List.mem_cons_self) (s ++ t)
      rw [List.cons_append, hcut, ih fun d hd => h d (List.mem_cons_of_mem _ hd)]
      rfl

/-- **Tokens are found again** behind any commas and blanks, of which there is at least one
in front of each token but the first. -/
theorem split_parts {parts : List Part} (htokens : Sequence (parts.map Part.token))
    (hgaps : ∀ part ∈ parts, ∀ c ∈ part.gap, separates (c, false) = true)
    (hne : ∀ part ∈ parts.tail, part.gap ≠ []) :
    split (parts.flatMap Part.text) = parts.map Part.token := by
  induction parts with
  | nil =>
      rfl
  | cons part parts ih =>
      obtain ⟨htoken, hunbroken, hclosed, hrest⟩ := sequence_cons_iff.mp htokens
      have hih := ih hrest (fun other hother => hgaps other (List.mem_cons_of_mem _ hother))
        fun other hother => hne other (List.mem_of_mem_tail hother)
      rw [List.flatMap_cons, Part.text, List.append_assoc,
        split_append_of_separates (hgaps part List.mem_cons_self)]
      cases parts with
      | nil =>
          rw [List.flatMap_nil, List.append_nil, split_of_unbroken htoken hunbroken]
          rfl
      | cons next parts =>
          -- the first separator of the next part closes the token
          obtain ⟨c, gap, hgap⟩ := List.exists_cons_of_ne_nil (hne next List.mem_cons_self)
          have hc : ∀ d ∈ [c], separates (d, false) = true := by
            intro d hd
            refine hgaps next (List.mem_cons_of_mem _ List.mem_cons_self) d ?_
            rw [hgap, List.mem_singleton.mp hd]
            exact List.mem_cons_self
          have hbehind : (next :: parts).flatMap Part.text =
              [c] ++ (gap ++ next.token ++ parts.flatMap Part.text) := by
            rw [List.flatMap_cons, Part.text, hgap]
            rfl
          rw [hbehind, split_append_of_separates hc] at hih
          rw [hbehind, List.singleton_append,
            split_append_cons (hclosed (List.cons_ne_nil _ _)) (hc c List.mem_cons_self), hih,
            split_of_unbroken htoken hunbroken]
          rfl

theorem joined_cons (t : Text) (ts : List Text) :
    Text.joined (t :: ts) = t ++ ts.flatMap ([',', ' '] ++ ·) := by
  induction ts generalizing t with
  | nil =>
      simp [Text.joined]
  | cons next ts ih =>
      rw [List.flatMap_cons, List.append_assoc, ← ih next]
      simp [Text.joined, List.intercalate_cons_cons]

/-- Tokens are found again when they are put together with a comma and a space between
neighbours. -/
theorem split_joined (h : Sequence ts) : split (Text.joined ts) = ts := by
  cases ts with
  | nil =>
      rfl
  | cons t ts =>
      have hcomma : ∀ c ∈ [',', ' '], separates (c, false) = true :=
        List.all_eq_true.mp (by decide)
      have htokens : ts.map (Part.token ∘ Part.mk [',', ' ']) = ts := List.map_id ts
      have hparts := @split_parts ({ token := t } :: ts.map (Part.mk [',', ' ']))
      simp only [List.map_cons, List.map_map, List.flatMap_cons, List.flatMap_map, htokens]
        at hparts
      rw [joined_cons]
      refine hparts h ?_ ?_
      · intro part hpart
        rcases List.mem_cons.mp hpart with rfl | hpart
        · simp
        · obtain ⟨_, -, rfl⟩ := List.mem_map.mp hpart
          exact hcomma
      · intro part hpart
        obtain ⟨_, -, rfl⟩ := List.mem_map.mp hpart
        exact List.cons_ne_nil _ _

end Token
end RegisterMachine
