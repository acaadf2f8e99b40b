import RegisterMachine.Proofs.Layout
import RegisterMachine.Proofs.Quotation

/-!
# Decorated sources

The plainest text of a line may be surrounded by blanks and followed by a comment
without any change to the program.  A comment needs an even number of quotes before
it: behind an open quote a semicolon belongs to the quoted text.

**Contents.**
* `Decoration`: the blanks around a line and the comment behind it.
* `Decoration.Suits`: the decorations that a text can have.
* `Text.withReturns`: a text with a carriage return before each newline.

**Results.**
* `Line.write_eq_of_ofText`: the plainest text of a line is what it was read from.
* `Decoration.strip_apply`: what is left of a decorated text is the text.
* `Program.ofSource_decorated`: a decorated source is read as the same program.
-/

namespace RegisterMachine
namespace Text

variable {u v : Text}

/-- Blanks at the two ends of a text do not count. -/
theorem trim_append (hu : ∀ c ∈ u, isBlank c = true) (hv : ∀ c ∈ v, isBlank c = true)
    (t : Text) : trim (u ++ t ++ v) = trim t := by
  have hright : ∀ s, trimRight isBlank (s ++ v) = trimRight isBlank s := by
    intro s
    have hreverse : ∀ c ∈ v.reverse, isBlank c = true := by
      simpa using hv
    rw [trimRight, List.reverse_append, List.dropWhile_append_of_pos hreverse, trimRight]
  have hnil : v.dropWhile isBlank = [] := List.dropWhile_eq_nil_iff.mpr hv
  unfold trim trimOf trimLeft
  rw [List.append_assoc, List.dropWhile_append_of_pos hu, List.dropWhile_append]
  split
  · rename_i hempty
    rw [hnil, List.isEmpty_iff.mp hempty]
  · exact hright _

/-- A text is made of blanks, what is left of it, and blanks. -/
theorem exists_trim (t : Text) :
    ∃ u v, (∀ c ∈ u, isBlank c = true) ∧ (∀ c ∈ v, isBlank c = true) ∧ t = u ++ trim t ++ v := by
  refine ⟨t.takeWhile isBlank, ((trimLeft isBlank t).reverse.takeWhile isBlank).reverse,
    fun c => List.mem_takeWhile_imp, ?_, ?_⟩
  · intro c hc
    exact List.mem_takeWhile_imp (List.mem_reverse.mp hc)
  · rw [List.append_assoc, trim, trimOf, trimRight, ← List.reverse_append,
      List.takeWhile_append_dropWhile, List.reverse_reverse, trimLeft,
      List.takeWhile_append_dropWhile]

/-- Nothing is stripped from a text that begins and ends with characters that are not blank. -/
theorem trim_of_ends {c d : Char} {t : Text} (hfirst : t.head? = some c)
    (hlast : t.getLast? = some d) (hc : isBlank c = false) (hd : isBlank d = false) :
    trim t = t := by
  obtain ⟨rest, rfl⟩ := List.head?_eq_some_iff.mp hfirst
  obtain ⟨front, hfront⟩ := List.getLast?_eq_some_iff.mp hlast
  have hleft : trimLeft isBlank (c :: rest) = c :: rest := by
    rw [trimLeft, List.dropWhile_cons_of_neg (by simp [hc])]
  rw [trim, trimOf, hleft, trimRight, hfront, List.reverse_append, List.reverse_singleton,
    List.singleton_append, List.dropWhile_cons_of_neg (by simp [hd]), List.reverse_cons,
    List.reverse_reverse]

/-- The text with a carriage return before each newline. -/
def withReturns (t : Text) : Text :=
  t.flatMap fun c => if c = '\n' then ['\r', '\n'] else [c]

theorem lines_newline (t : Text) : lines ('\n' :: t) = [] :: lines t := by
  simp [lines, List.splitOn_cons_eq_if_modifyHead]

theorem lines_cons {c : Char} (hc : c ≠ '\n') (t : Text) :
    lines (c :: t) = (lines t).modifyHead (c :: ·) := by
  simp [lines, List.splitOn_cons_eq_if_modifyHead, hc]

/-- A carriage return is left at the end of each line but the last. -/
theorem lines_withReturns (t : Text) :
    List.Forall₂ (fun raw other => other = raw ∨ other = raw ++ ['\r'])
      t.lines t.withReturns.lines := by
  induction t with
  | nil =>
      exact .cons (.inl rfl) .nil
  | cons c t ih =>
      by_cases hc : c = '\n'
      · have hreturns : withReturns (c :: t) = '\r' :: '\n' :: withReturns t := by
          simp [withReturns, hc]
        rw [hreturns, hc, lines_newline, lines_cons (by decide), lines_newline]
        exact .cons (.inr rfl) ih
      · have hreturns : withReturns (c :: t) = c :: withReturns t := by
          simp [withReturns, hc]
        rw [hreturns, lines_cons hc, lines_cons hc]
        generalize lines t = raws at ih
        generalize lines (withReturns t) = others at ih
        cases ih with
        | nil =>
            exact .nil
        | cons hfirst hrest =>
            refine .cons ?_ hrest
            rcases hfirst with rfl | rfl
            · exact .inl rfl
            · exact .inr rfl

end Text

namespace Instruction

variable {text : Text} {i : Instruction}

theorem text_of_ofText (h : ofText text = .ok i) : i.text = text := by
  unfold ofText at h
  split at h
  · cases h
    rfl
  · obtain ⟨operands, -, rfl⟩ := Result.map_eq_ok.mp h
    rw [ofOperands_eq]

end Instruction

/-- A label definition is its label and a colon. -/
theorem Line.eq_of_definedLabel? {t name : Text} (h : definedLabel? t = some name) :
    t = name ++ [':'] := by
  simp only [definedLabel?, Option.ite_none_right_eq_some, Option.some.injEq] at h
  obtain ⟨⟨hlast, -⟩, rfl⟩ := h
  exact (List.dropLast_append_getLast? ':' hlast).symm

namespace Line

variable {raw : Text} {line : Line}

/-- The plainest text of a line is what is left of the text it was read from. -/
theorem write_eq_of_ofText (h : ofText raw = .ok line) :
    line.write = Text.trim (Token.uncomment raw) := by
  unfold ofText ofStripped at h
  generalize Text.trim (Token.uncomment raw) = t at h
  split at h
  · rename_i hnil
    cases h
    exact hnil.symm
  · split at h
    · rename_i hlabel
      cases h
      exact (eq_of_definedLabel? hlabel).symm
    · obtain ⟨i, hi, rfl⟩ := Result.map_eq_ok.mp h
      exact Instruction.text_of_ofText hi

/-- Lines that agree without comment and blanks hold the same. -/
theorem ofText_congr {other : Text}
    (h : Text.trim (Token.uncomment other) = Text.trim (Token.uncomment raw)) :
    ofText other = ofText raw := by
  rw [ofText, h, ofText]

/-- What is left of a line contains no comment and has no blanks at its ends. -/
theorem bare_strip (raw : Text) :
    Token.Bare false (Text.trim (Token.uncomment raw)) ∧
      Text.trim (Text.trim (Token.uncomment raw)) = Text.trim (Token.uncomment raw) := by
  obtain ⟨u, v, hu, hv, hline⟩ := Text.exists_trim (Token.uncomment raw)
  have hbare := Token.bare_uncomment raw
  generalize ht : Text.trim (Token.uncomment raw) = t at hline ⊢
  rw [hline] at hbare ht
  constructor
  · have hmiddle := (Token.bare_append.mp (Token.bare_append.mp hbare).1).2
    rw [Token.stateAfter_of_isBlank false hu] at hmiddle
    exact hmiddle
  · rw [← Text.trim_append hu hv t]
    exact ht

/-- Blanks at the end of a line do not count. -/
theorem ofText_append_of_isBlank {w : Text} (hw : ∀ c ∈ w, Text.isBlank c = true) (raw : Text) :
    ofText (raw ++ w) = ofText raw := by
  apply ofText_congr
  by_cases hbare : Token.Bare false raw
  · have happend : Token.Bare false (raw ++ w) :=
      Token.bare_append.mpr ⟨hbare, Token.bare_of_isBlank hw⟩
    rw [Token.uncomment_of_bare hbare, Token.uncomment_of_bare happend]
    exact @Text.trim_append [] w (by simp) hw raw
  · rw [Token.uncomment_append_of_not_bare hbare]

theorem newline_not_mem_write (h : ofText raw = .ok line) (hraw : '\n' ∉ raw) :
    '\n' ∉ line.write := by
  obtain ⟨u, v, -, -, hline⟩ := Text.exists_trim (Token.uncomment raw)
  intro hmem
  rw [write_eq_of_ofText h] at hmem
  apply hraw
  have huncomment : '\n' ∈ Token.uncomment raw := by
    rw [hline]
    simp [hmem]
  exact (Token.isPrefix_uncomment raw).subset huncomment

end Line

/-- The blanks around the text of a line, and the comment behind it. -/
structure Decoration where
  before : Text := []
  after : Text := []
  comment : Option Text := none
deriving DecidableEq, Repr

namespace Decoration

variable {d : Decoration} {t : Text}

/-- A text with its decoration. -/
def apply (d : Decoration) (t : Text) : Text :=
  d.before ++ t ++ d.after ++ (d.comment.map (';' :: ·)).getD []

/-- The decorations that a text can have: blanks on the same line, and a comment if no quote
is left open. -/
structure Suits (d : Decoration) (t : Text) : Prop where
  before : ∀ c ∈ d.before, Text.isBlank c = true ∧ c ≠ '\n'
  after : ∀ c ∈ d.after, Text.isBlank c = true ∧ c ≠ '\n'
  comment : ∀ comment, d.comment = some comment →
    '\n' ∉ comment ∧ Even (t.count Operand.quote)

theorem Suits.newline_not_mem (h : d.Suits t) (ht : '\n' ∉ t) : '\n' ∉ d.apply t := by
  have hbefore : '\n' ∉ d.before := fun hmem => (h.before _ hmem).2 rfl
  have hafter : '\n' ∉ d.after := fun hmem => (h.after _ hmem).2 rfl
  unfold apply
  cases hcomment : d.comment with
  | none =>
      simp [hbefore, ht, hafter]
  | some comment =>
      simp [hbefore, ht, hafter, (h.comment comment hcomment).1]

/-- **What is left of a decorated text is the text.** -/
theorem Suits.strip_apply (h : d.Suits t) (hbare : Token.Bare false t)
    (htrim : Text.trim t = t) : Text.trim (Token.uncomment (d.apply t)) = t := by
  have hbefore : ∀ c ∈ d.before, Text.isBlank c = true := fun c hc => (h.before c hc).1
  have hafter : ∀ c ∈ d.after, Text.isBlank c = true := fun c hc => (h.after c hc).1
  have hstart := Token.stateAfter_of_isBlank false hbefore
  have hblanks : Token.Bare false (d.before ++ t ++ d.after) := by
    rw [Token.bare_append, Token.bare_append, hstart]
    exact ⟨⟨Token.bare_of_isBlank hbefore, hbare⟩, Token.bare_of_isBlank hafter⟩
  have huncomment : Token.uncomment (d.apply t) = d.before ++ t ++ d.after := by
    unfold apply
    cases hcomment : d.comment with
    | none =>
        simpa using Token.uncomment_of_bare hblanks
    | some comment =>
        -- the quotes of the text are closed, so the semicolon is not quoted
        have heven := (Token.stateAfter_eq_iff false t).mpr (h.comment comment hcomment).2
        refine Token.uncomment_append_comment hblanks ?_ comment
        rw [Token.stateAfter_append, Token.stateAfter_append, hstart, heven]
        exact Token.stateAfter_of_isBlank false hafter
  rw [huncomment, Text.trim_append hbefore hafter, htrim]

end Decoration

/-- **A decorated line holds the same.** -/
theorem Line.ofText_apply {raw : Text} {line : Line} {d : Decoration}
    (h : ofText raw = .ok line) (hd : d.Suits line.write) :
    ofText (d.apply line.write) = .ok line := by
  obtain ⟨hbare, htrim⟩ := bare_strip raw
  rw [← write_eq_of_ofText h] at hbare htrim
  rw [← h]
  apply ofText_congr
  rw [hd.strip_apply hbare htrim, write_eq_of_ofText h]

namespace Program

variable {source : Text} {p : Program}

/-- The source of a program may be replaced line by line. -/
theorem ofSource_replaced {other : Text} (h : ofSource source = .ok p)
    (hlines : List.Forall₂ (fun raw line => Line.ofText raw = .ok line) other.lines p.lines) :
    ofSource other = .ok p := by
  obtain ⟨-, hlabels, hnodup⟩ := ofSource_eq_ok_iff.mp h
  exact ofSource_eq_ok_iff.mpr ⟨hlines, hlabels, hnodup⟩

/-- Every line of a program was read from a text without a newline. -/
theorem exists_raw (h : ofSource source = .ok p) :
    ∀ line ∈ p.lines, ∃ raw, '\n' ∉ raw ∧ Line.ofText raw = .ok line := by
  intro line hline
  obtain ⟨hlines, -, -⟩ := ofSource_eq_ok_iff.mp h
  exact Result.exists_of_forall₂
    ((List.forall₂_and_left _ _).mpr ⟨fun _ => Text.newline_not_mem, hlines⟩) hline

/-- Decorated lines hold the same, one by one. -/
theorem forall₂_apply {ds : List Decoration} {lines : List Line}
    (hds : List.Forall₂ (fun d line => d.Suits line.write) ds lines)
    (hlines : ∀ line ∈ lines, ∃ raw, '\n' ∉ raw ∧ Line.ofText raw = .ok line) :
    List.Forall₂ (fun raw line => '\n' ∉ raw ∧ Line.ofText raw = .ok line)
      (List.zipWith (fun d line => d.apply line.write) ds lines) lines := by
  induction hds with
  | nil =>
      exact .nil
  | cons hd _ ih =>
      obtain ⟨raw, hnewline, hraw⟩ := hlines _ List.mem_cons_self
      refine .cons ⟨?_, Line.ofText_apply hraw hd⟩ (ih ?_)
      · exact hd.newline_not_mem (Line.newline_not_mem_write hraw hnewline)
      · exact fun line hline => hlines line (List.mem_cons_of_mem _ hline)

/-- A source with its lines decorated is read as the same program. -/
theorem ofSource_apply (h : ofSource source = .ok p) {ds : List Decoration}
    (hds : List.Forall₂ (fun d line => d.Suits line.write) ds p.lines) :
    ofSource (Text.unlines (List.zipWith (fun d line => d.apply line.write) ds p.lines)) =
      .ok p := by
  obtain ⟨hnewline, hlines⟩ := (List.forall₂_and_left _ _).mp (forall₂_apply hds (exists_raw h))
  apply ofSource_replaced h
  rw [Text.lines_unlines _ hnewline]
  · exact hlines
  · intro hnil
    rw [hnil, List.forall₂_nil_left_iff] at hlines
    obtain ⟨hsource, -, -⟩ := ofSource_eq_ok_iff.mp h
    rw [hlines, List.forall₂_nil_right_iff] at hsource
    exact source.lines_ne_nil hsource

/-- The plainest source of a program is one of its decorations. -/
theorem ofSource_write (h : ofSource source = .ok p) : ofSource p.write = .ok p := by
  have hsuits : ∀ line : Line, Decoration.Suits {} line.write :=
    fun line => ⟨by simp, by simp, by simp⟩
  have hds : List.Forall₂ (fun d line => d.Suits line.write)
      (p.lines.map fun _ => ({} : Decoration)) p.lines := by
    rw [List.forall₂_map_left_iff, List.forall₂_same]
    exact fun line _ => hsuits line
  have hplain : List.zipWith (fun d line => Decoration.apply d line.write)
      (p.lines.map fun _ => ({} : Decoration)) p.lines = p.lines.map Line.write := by
    rw [List.zipWith_map_left, List.zipWith_self]
    simp [Decoration.apply]
  have hsource := ofSource_apply h hds
  rw [hplain] at hsource
  exact hsource

/-- A carriage return is a blank at the end of its line. -/
theorem ofSource_withReturns (h : ofSource source = .ok p) :
    ofSource source.withReturns = .ok p := by
  have hsame : List.Forall₂ (fun raw other => Line.ofText raw = Line.ofText other)
      source.lines source.withReturns.lines := by
    refine source.lines_withReturns.imp ?_
    rintro raw other (rfl | rfl)
    · rfl
    · have hreturn : ∀ c ∈ ['\r'], Text.isBlank c = true :=
        List.forall_mem_singleton.mpr (by decide)
      exact (Line.ofText_append_of_isBlank hreturn raw).symm
  have hmap : source.lines.map Line.ofText = source.withReturns.lines.map Line.ofText := by
    rw [← List.forall₂_eq_eq_eq, List.forall₂_map_left_iff, List.forall₂_map_right_iff]
    exact hsame
  obtain ⟨hlines, -, -⟩ := ofSource_eq_ok_iff.mp h
  have hread : List.Forall₂ (fun read line => read = .ok line)
      (source.lines.map Line.ofText) p.lines :=
    List.forall₂_map_left_iff.mpr hlines
  rw [hmap] at hread
  exact ofSource_replaced h (List.forall₂_map_left_iff.mp hread)

/-- **A source may be decorated.**  Blanks around its lines, comments behind those that
leave no quote open, and carriage returns before its newlines do not change the program;
in particular the plainest source of a program is read as that program. -/
theorem ofSource_decorated (h : ofSource source = .ok p) :
    (∀ ds : List Decoration,
      List.Forall₂ (fun d line => d.Suits line.write) ds p.lines →
      ofSource (Text.unlines (List.zipWith (fun d line => d.apply line.write) ds p.lines)) =
        .ok p) ∧
    ofSource p.write = .ok p ∧
    ofSource source.withReturns = .ok p :=
  ⟨fun _ hds => ofSource_apply h hds, ofSource_write h, ofSource_withReturns h⟩

/-- A comment behind a label, and blanks behind a quote that is left open. -/
theorem ofSource_decorated_open :
    ∃ p, ofSource "f:\nmsg 'a; b  ; c".toList = .ok p ∧
      p.lines.map Line.write = ["f:".toList, "msg 'a; b  ; c".toList] ∧
      ofSource "\tf: ; it's\n msg 'a; b  ; c ".toList = .ok p ∧
      ofSource p.write = .ok p ∧
      ofSource "f:\x0d\nmsg 'a; b  ; c".toList = .ok p := by
  obtain ⟨p, hp⟩ : ∃ p, p =
      ({ lines :=
          [.label ['f'],
            .instruction { opcode := .msg, operands := [.text "a; b  ; c".toList],
                           token := "msg".toList, text := "msg 'a; b  ; c".toList }]
         labels := [(['f'], 0)] } : Program) := ⟨_, rfl⟩
  have hsource : ofSource "f:\nmsg 'a; b  ; c".toList = .ok p := by
    subst hp
    decide +kernel
  have hlines : p.lines.map Line.write = ["f:".toList, "msg 'a; b  ; c".toList] := by
    subst hp
    decide +kernel
  obtain ⟨happly, hwrite, hreturns⟩ := ofSource_decorated hsource
  refine ⟨p, hsource, hlines, ?_, hwrite, hreturns⟩
  have hfirst : Decoration.Suits ⟨['\t'], [' '], some " it's".toList⟩ "f:".toList :=
    ⟨List.forall_mem_singleton.mpr (by decide), List.forall_mem_singleton.mpr (by decide),
      by rintro _ ⟨⟩; decide⟩
  have hsecond : Decoration.Suits ⟨[' '], [' '], none⟩ "msg 'a; b  ; c".toList :=
    ⟨List.forall_mem_singleton.mpr (by decide), List.forall_mem_singleton.mpr (by decide),
      by simp⟩
  have hsuits := happly
    [⟨['\t'], [' '], some " it's".toList⟩, ⟨[' '], [' '], none⟩]
  subst hp
  exact hsuits (.cons hfirst (.cons hsecond .nil))

end Program
end RegisterMachine
