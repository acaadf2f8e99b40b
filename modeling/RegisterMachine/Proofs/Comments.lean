import Mathlib.Algebra.Ring.Parity
import RegisterMachine.Proofs.Decoration
import RegisterMachine.Proofs.Separation

/-!
# Comments

A comment begins at a semicolon behind an even number of quotes.  Reading a line drops the
first comment and all behind it, and then cuts what is left into tokens.  Since a line is cut
outside of quotation only, the quotes within a token tell as well as those of the whole line
whether a semicolon is quoted: no token of what is left has an unquoted one.

**Contents.**
* `Token.Opens`: the places where a comment begins.

**Results.**
* `Token.bare_iff`: a text without comments, by its semicolons and quotes.
* `Token.isPrefix_uncomment_of_bare`: what is left of a line is its longest such part.
* `Token.bare_of_mem_split`: no comment begins in a token if none begins in the line.
* `Line.uncommented`: what is left of a line, its tokens, and what is decoded.
-/

namespace RegisterMachine
namespace Token

variable {s t : Text} {k : Nat}

/-- A comment begins at a place that holds a semicolon, behind an even number of quotes. -/
def Opens (t : Text) (k : Nat) : Prop :=
  t[k]? = some ';' ∧ Even ((t.take k).count Operand.quote)

instance (t : Text) (k : Nat) : Decidable (Opens t k) :=
  inferInstanceAs (Decidable (_ ∧ _))

theorem opensComment_iff_opens {c : Char} (hc : t[k]? = some c) :
    opensComment (c, stateAfter false (t.take k)) = true ↔ Opens t k := by
  rw [Opens, ← stateAfter_eq_iff false, hc]
  simp [opensComment]

/-- **A text without comments**, by its semicolons and the quotes in front of them. -/
theorem bare_iff : Bare false t ↔ ∀ k, ¬ Opens t k := by
  rw [Bare, forall_mem_marked_iff]
  constructor
  · intro h k hopens
    have hnot := h k ';' hopens.1
    rw [(opensComment_iff_opens hopens.1).mpr hopens] at hnot
    cases hnot
  · intro h k c hc
    rw [Bool.eq_false_iff, ne_eq, opensComment_iff_opens hc]
    exact h k

/-- Where no comment begins, an odd number of quotes stands before each semicolon. -/
theorem odd_of_bare (h : Bare false t) (hk : t[k]? = some ';') :
    Odd ((t.take k).count Operand.quote) := by
  rw [← Nat.not_even_iff_odd]
  exact fun heven => bare_iff.mp h k ⟨hk, heven⟩

/-- A beginning of a line without comments is left of the line, and what follows it may be. -/
theorem isPrefix_uncomment_of_bare (h : Bare false s) (hs : s <+: t) : s <+: uncomment t := by
  obtain ⟨rest, rfl⟩ := hs
  have hall : ∀ m ∈ marked false s, (!opensComment m) = true := by
    intro m hm
    simp [h m hm]
  rw [uncomment_eq_takeWhile, marked_append, List.takeWhile_append_of_pos hall, List.map_append,
    map_fst_marked]
  exact List.prefix_append _ _

theorem bare_cons {inside : Bool} {c : Char} :
    Bare inside (c :: t) ↔ opensComment (c, inside) = false ∧ Bare (toggle inside c) t := by
  simp [Bare]

/-- **No comment begins in a token** if none begins in the line: each token begins outside of
quotation, as the line does. -/
theorem bare_of_mem_split (h : Bare false t) : ∀ token ∈ split t, Bare false token := by
  induction t using cut_induction with
  | nil =>
      intro token htoken
      cases htoken
  | whole t hne hunbroken =>
      rw [split_of_unbroken hne hunbroken, List.forall_mem_singleton]
      exact h
  | cut s c rest hs hclosed hc ih_s ih_rest =>
      obtain ⟨hbare, hbehind⟩ := bare_append.mp h
      rw [hclosed, bare_cons, toggle_of_ne false (ne_quote_of_separates hc)] at hbehind
      rw [split_append_cons hclosed hc, List.forall_mem_append]
      exact ⟨ih_s hbare, ih_rest hbehind.2⟩

end Token

namespace Line

variable {t : Text}

/-- A line is decoded, if at all, from what is left of it. -/
theorem ofText_cases (t : Text) :
    ofText t = .ok .blank ∨ (∃ name, ofText t = .ok (.label name)) ∨
      ofText t = (Instruction.ofText (Text.trim (Token.uncomment t))).map .instruction := by
  unfold ofText ofStripped
  split
  · exact .inl rfl
  · split
    · rename_i name _
      exact .inr (.inl ⟨name, rfl⟩)
    · exact .inr (.inr rfl)

/-- The text of a comment does not count. -/
theorem ofText_append_comment (h : Token.Bare false t) (heven : Even (t.count Operand.quote))
    (comment : Text) : ofText (t ++ ';' :: comment) = ofText t := by
  apply ofText_congr
  rw [Token.uncomment_append_comment h ((Token.stateAfter_eq_iff false t).mpr heven),
    Token.uncomment_of_bare h]

/-- **What is left of a line** is the longest beginning of it in which no comment begins, and
nothing more is dropped from what is left.  No token of it has a semicolon behind an even
number of its own quotes, whether the blanks at its ends were stripped or not.  What is left,
stripped, is all that is ever decoded, and the text of a comment does not count. -/
theorem uncommented (t : Text) :
    (Token.uncomment t <+: t ∧ (∀ k, ¬ Token.Opens (Token.uncomment t) k) ∧
      ∀ s, s <+: t → (∀ k, ¬ Token.Opens s k) → s <+: Token.uncomment t) ∧
    Token.uncomment (Token.uncomment t) = Token.uncomment t ∧
    (∀ left ∈ [Token.uncomment t, Text.trim (Token.uncomment t)], ∀ token ∈ Token.split left,
      ∀ k, token[k]? = some ';' → Odd ((token.take k).count Operand.quote)) ∧
    (∀ k, ¬ Token.Opens (Text.trim (Token.uncomment t)) k) ∧
    (ofText t = .ok .blank ∨ (∃ name, ofText t = .ok (.label name)) ∨
      ofText t = (Instruction.ofText (Text.trim (Token.uncomment t))).map .instruction) ∧
    ((∀ k, ¬ Token.Opens t k) → Even (t.count Operand.quote) →
      ∀ comment, ofText (t ++ ';' :: comment) = ofText t) := by
  have hleft : Token.Bare false (Token.uncomment t) := Token.bare_uncomment t
  have hstripped : Token.Bare false (Text.trim (Token.uncomment t)) := (bare_strip t).1
  refine ⟨⟨Token.isPrefix_uncomment t, Token.bare_iff.mp hleft, ?_⟩,
    Token.uncomment_of_bare hleft, ?_, Token.bare_iff.mp hstripped, ofText_cases t, ?_⟩
  · intro s hs hbare
    exact Token.isPrefix_uncomment_of_bare (Token.bare_iff.mpr hbare) hs
  · intro left hmem token htoken k hk
    have hbare : Token.Bare false left := by
      rcases List.mem_pair.mp hmem with rfl | rfl
      · exact hleft
      · exact hstripped
    exact Token.odd_of_bare (Token.bare_of_mem_split hbare token htoken) hk
  · intro hbare heven comment
    exact ofText_append_comment (Token.bare_iff.mpr hbare) heven comment

/-- Semicolons between quotes and behind them, and a quote that is left open, from which the
blanks at the end of the line are stripped. -/
theorem uncommented_open :
    Token.uncomment "msg 'a;b', 'c' ; 'd".toList = "msg 'a;b', 'c' ".toList ∧
      ofText "msg 'a;b', 'c' ; 'd".toList = ofText "msg 'a;b', 'c' ".toList ∧
      Token.uncomment "msg 'a' 'b; ; ".toList = "msg 'a' 'b; ; ".toList ∧
      Token.split "msg 'a' 'b; ; ".toList = ["msg".toList, "'a'".toList, "'b; ; ".toList] ∧
      Token.split "msg 'a' 'b; ;".toList = ["msg".toList, "'a'".toList, "'b; ;".toList] ∧
      Odd (("'b; ;".toList.take 4).count Operand.quote) := by
  obtain ⟨t, ht⟩ : ∃ t, t = "msg 'a;b', 'c' ".toList := ⟨_, rfl⟩
  obtain ⟨u, hu⟩ : ∃ u, u = "msg 'a' 'b; ; ".toList := ⟨_, rfl⟩
  have hbare : Token.Bare false t := by
    unfold Token.Bare
    subst ht
    decide +kernel
  obtain ⟨hline, huncomment, heven⟩ : "msg 'a;b', 'c' ; 'd".toList = t ++ ';' :: " 'd".toList ∧
      Token.uncomment (t ++ ';' :: " 'd".toList) = t ∧ Even (t.count Operand.quote) := by
    subst ht
    decide +kernel
  obtain ⟨hkept, htrim, hsplit, hstripped⟩ : Token.uncomment u = u ∧
      Text.trim u = "msg 'a' 'b; ;".toList ∧
      Token.split u = ["msg".toList, "'a'".toList, "'b; ; ".toList] ∧
      Token.split (Text.trim u) = ["msg".toList, "'a'".toList, "'b; ;".toList] := by
    subst hu
    decide +kernel
  have hmem : "'b; ;".toList ∈ Token.split (Text.trim u) := by
    rw [hstripped]
    exact .tail _ (.tail _ (.head _))
  obtain ⟨-, -, -, -, -, hcomment⟩ := uncommented t
  obtain ⟨-, -, hquoted, -⟩ := uncommented u
  rw [hkept] at hquoted
  have hlast := hquoted (Text.trim u) (by simp) _ hmem 4 (by decide)
  rw [hline, ← ht, ← hu, ← htrim]
  exact ⟨huncomment, hcomment (Token.bare_iff.mp hbare) heven _, hkept, hsplit, hstripped, hlast⟩

end Line
end RegisterMachine
