import RegisterMachine.Proofs.Concatenation
import RegisterMachine.Proofs.Decoration
import RegisterMachine.Proofs.Tokens

/-!
# What keeps a source from being read

A source is read line by line.  A line stands in the way if it gives an instruction a
numeral that is too long, or defines a label that an earlier line defines.  The first
such line decides how reading fails, and without one the source is a program.

**Contents.**
* `Token.overlong?`, `Instruction.overlong?`, `Line.overlong?`: numerals that are too long.
* `Line.defined?`: the label that a line defines.
* `Program.Obstacle`, `Program.FirstObstacle`: the lines that stand in the way.
* `Instruction.zeroMove`: an instruction with a numeral of any length.

**Results.**
* `Instruction.error?_ofText`, `Line.error?_ofText`: only an overlong numeral keeps a line
  from being read.
* `Program.exists_ofLines_iff`: lines without obstacles are read.
* `Program.ofLines_eq_error_iff`: the first obstacle is what is reported.
* `Program.exists_repeats_of_error`: without overlong numerals, it is a label defined twice.
* `Program.ofSource_zeroMove`: a source that is kept from being read by its numeral.
-/

namespace RegisterMachine

/-- The complaint about a token that is a numeral with too many digits. -/
def Token.overlong? (token : Text) : Option TooLong :=
  (Numeral.ofToken? token).bind fun numeral =>
    if numeral.digits.length ≤ Numeral.maxDigits then none else some ⟨numeral.digits.length⟩

/-- The complaint about the first argument in a text that is overlong. -/
def Instruction.overlong? (text : Text) : Option TooLong :=
  (Token.split text).tail.findSome? Token.overlong?

namespace Line

/-- The complaint about the first argument on a line that is overlong. -/
def overlong? (raw : Text) : Option TooLong :=
  Instruction.overlong? (Text.trim (Token.uncomment raw))

/-- The label that a line defines. -/
def defined? (raw : Text) : Option Text :=
  definedLabel? (Text.trim (Token.uncomment raw))

end Line

theorem Operand.error?_ofToken (token : Text) :
    Result.error? (ofToken token) = Token.overlong? token := by
  unfold ofToken Token.overlong?
  cases Numeral.ofToken? token with
  | none =>
      rfl
  | some numeral =>
      simp only [Result.error?_map, Option.bind_some, Numeral.read]
      split <;> rfl

/-- **Only an overlong numeral** keeps an instruction from being read. -/
theorem Instruction.error?_ofText (text : Text) :
    Result.error? (ofText text) = overlong? text := by
  unfold ofText overlong?
  cases Token.split text with
  | nil =>
      rfl
  | cons token arguments =>
      simp only [Result.error?_map, Result.error?_mapM, Operand.error?_ofToken, List.tail_cons]

namespace Line

variable {raw : Text} {line : Line}

theorem plain_of_continuesLabel {c : Char} (h : continuesLabel c = true) :
    c ≠ Operand.quote ∧ Token.separates (c, false) = false := by
  have hclass : ((decide (c.val ≥ 'A'.val ∧ c.val ≤ 'Z'.val) ||
      (decide (c.val ≥ 'a'.val) && decide (c.val ≤ 'z'.val)) ||
      (decide (c.val ≥ '0'.val) && decide (c.val ≤ '9'.val))) || c == '_') = true := h
  have hcode : c.toNat = 95 ∨ (48 ≤ c.toNat ∧ c.toNat ≤ 57) ∨ (65 ≤ c.toNat ∧ c.toNat ≤ 90) ∨
      (97 ≤ c.toNat ∧ c.toNat ≤ 122) := by
    simp only [Bool.or_eq_true, Bool.and_eq_true, decide_eq_true_eq, beq_iff_eq] at hclass
    rcases hclass with ((h | h) | h) | rfl
    · exact .inr (.inr (.inl h))
    · exact .inr (.inr (.inr h))
    · exact .inr (.inl h)
    · exact .inl rfl
  have hquote : c ≠ Operand.quote := by
    rintro rfl
    revert hcode
    decide
  have hcomma : c ≠ ',' := by
    rintro rfl
    revert hcode
    decide
  have hblank : Text.isBlank c = false := by
    simp only [Text.isBlank, Text.inRanges, Text.blankRanges, List.any_cons, List.any_nil,
      Bool.or_false, Bool.or_eq_false_iff, Bool.and_eq_false_iff, decide_eq_false_iff_not]
    omega
  exact ⟨hquote, by simp [Token.separates, hcomma, hblank]⟩

theorem continuesLabel_of_mem {name : Text} (h : isLabelName name = true) {c : Char}
    (hc : c ∈ name) : continuesLabel c = true := by
  cases name with
  | nil =>
      cases h
  | cons first rest =>
      simp only [isLabelName, Bool.and_eq_true, List.all_eq_true] at h
      rcases List.mem_cons.mp hc with rfl | hc
      · have hbegins := h.1
        simp only [beginsLabel, Bool.or_eq_true] at hbegins
        simp only [continuesLabel, Char.isAlphanum, Bool.or_eq_true]
        tauto
      · exact h.2 c hc

/-- A label definition is a single token. -/
theorem split_of_definedLabel? {t name : Text} (h : definedLabel? t = some name) :
    Token.split t = [t] := by
  have ht := eq_of_definedLabel? h
  simp only [definedLabel?, Option.ite_none_right_eq_some, Option.some.injEq] at h
  obtain ⟨⟨-, hname⟩, rfl⟩ := h
  have hplain : ∀ c ∈ t, c ≠ Operand.quote ∧ Token.separates (c, false) = false := by
    rw [ht]
    intro c hc
    rcases List.mem_append.mp hc with hc | hc
    · exact plain_of_continuesLabel (continuesLabel_of_mem hname hc)
    · rw [List.mem_singleton.mp hc]
      decide
  apply Token.split_of_unbroken
  · rw [ht]
    simp
  · exact (Token.unbroken_of_plain hplain).1

theorem error?_ofStripped (t : Text) :
    Result.error? (ofStripped t) = Instruction.overlong? t := by
  unfold ofStripped
  split
  · rename_i hnil
    rw [hnil]
    rfl
  · cases hlabel : definedLabel? t with
    | some name =>
        rw [Instruction.overlong?, split_of_definedLabel? hlabel]
        rfl
    | none =>
        simp only [Result.error?_map, Instruction.error?_ofText]

/-- Only an overlong numeral keeps a line from being read. -/
theorem error?_ofText (raw : Text) : Result.error? (ofText raw) = overlong? raw :=
  error?_ofStripped _

/-- A line that was read defines a label exactly if its text does. -/
theorem label?_of_ofText (h : ofText raw = .ok line) : line.label? = defined? raw := by
  unfold ofText ofStripped at h
  unfold defined?
  generalize Text.trim (Token.uncomment raw) = t at h ⊢
  split at h
  · rename_i hnil
    cases h
    rw [hnil]
    rfl
  · split at h
    · rename_i hlabel
      cases h
      exact hlabel.symm
    · rename_i hlabel
      obtain ⟨i, -, rfl⟩ := Result.map_eq_ok.mp h
      exact hlabel.symm

theorem ofText_of_defined? {name : Text} (h : defined? raw = some name) :
    ofText raw = .ok (.label name) := by
  unfold defined? at h
  unfold ofText ofStripped
  rw [if_neg, h]
  intro hnil
  rw [hnil] at h
  cases h

theorem filterMap_label?_eq {raws : List Text} {lines : List Line}
    (h : List.Forall₂ (fun raw line => ofText raw = .ok line) raws lines) :
    lines.filterMap label? = raws.filterMap defined? := by
  induction h with
  | nil =>
      rfl
  | cons hfirst _ ih =>
      rw [List.filterMap_cons, List.filterMap_cons, label?_of_ofText hfirst, ih]

end Line

namespace Program

variable {raws : List Text} {place : Nat} {e : LoadError}

/-- Two lines that define the same label. -/
structure Repeats (raws : List Text) (first second : Nat) (name : Text) : Prop where
  lt : first < second
  earlier : raws[first]?.bind Line.defined? = some name
  later : raws[second]?.bind Line.defined? = some name

/-- What stands in the way of reading the line at a place. -/
inductive Obstacle (raws : List Text) (place : Nat) : LoadError → Prop
  | numeral {e : TooLong} (h : raws[place]?.bind Line.overlong? = some e) :
      Obstacle raws place (.numeral e)
  | label {first : Nat} {name : Text} (h : Repeats raws first place name) :
      Obstacle raws place (.parse (.duplicateLabel name first place))

/-- The first obstacle in the way of reading lines. -/
structure FirstObstacle (raws : List Text) (place : Nat) (e : LoadError) : Prop where
  obstacle : Obstacle raws place e
  clear : ∀ k < place, ∀ other, ¬ Obstacle raws k other

theorem Obstacle.exists_first (h : Obstacle raws place e) :
    ∃ first other, FirstObstacle raws first other := by
  induction place using Nat.strongRecOn generalizing e with
  | ind place ih =>
      by_cases hclear : ∀ k < place, ∀ other, ¬ Obstacle raws k other
      · exact ⟨place, e, h, hclear⟩
      · push Not at hclear
        obtain ⟨k, hk, other, hother⟩ := hclear
        exact ih k hk hother

/-- What is known of a line among the first ones is known of it among all. -/
theorem bind_getElem?_of_take {α : Type} {f : Text → Option α} {n k : Nat} {a : α}
    (h : (raws.take n)[k]?.bind f = some a) : k < n ∧ raws[k]?.bind f = some a := by
  rw [List.getElem?_take] at h
  split at h
  · rename_i hk
    exact ⟨hk, h⟩
  · cases h

theorem Obstacle.exists_raw (h : Obstacle raws place e) : ∃ raw, raws[place]? = some raw := by
  cases h with
  | numeral h =>
      obtain ⟨raw, hraw, -⟩ := Option.bind_eq_some_iff.mp h
      exact ⟨raw, hraw⟩
  | label h =>
      obtain ⟨raw, hraw, -⟩ := Option.bind_eq_some_iff.mp h.later
      exact ⟨raw, hraw⟩

theorem Obstacle.of_take {n : Nat} (h : Obstacle (raws.take n) place e) :
    place < n ∧ Obstacle raws place e := by
  cases h with
  | numeral h =>
      obtain ⟨hlt, h⟩ := bind_getElem?_of_take h
      exact ⟨hlt, .numeral h⟩
  | label h =>
      obtain ⟨hlt, hlater⟩ := bind_getElem?_of_take h.later
      exact ⟨hlt, .label ⟨h.lt, (bind_getElem?_of_take h.earlier).2, hlater⟩⟩

/-- The labels of lines are all different exactly if no two lines define the same one. -/
theorem nodup_defined_iff : (raws.filterMap Line.defined?).Nodup ↔
    ∀ first second name, ¬ Repeats raws first second name := by
  rw [List.Nodup, List.pairwise_filterMap, List.pairwise_iff_getElem]
  constructor
  · intro h first second name hrepeats
    obtain ⟨_, hearlier, hname⟩ := Option.bind_eq_some_iff.mp hrepeats.earlier
    obtain ⟨_, hlater, hsame⟩ := Option.bind_eq_some_iff.mp hrepeats.later
    obtain ⟨hfirst, rfl⟩ := List.getElem?_eq_some_iff.mp hearlier
    obtain ⟨hsecond, rfl⟩ := List.getElem?_eq_some_iff.mp hlater
    exact h first second hfirst hsecond hrepeats.lt name hname name hsame rfl
  · rintro h first second hfirst hsecond hlt name hname _ hsame rfl
    refine h first second name ⟨hlt, ?_, ?_⟩
    · rw [List.getElem?_eq_getElem hfirst]
      exact hname
    · rw [List.getElem?_eq_getElem hsecond]
      exact hsame

/-- Lines without an overlong numeral can be read one by one. -/
theorem exists_mapM_iff : (∃ lines, raws.mapM Line.ofText = .ok lines) ↔
    ∀ raw ∈ raws, Line.overlong? raw = none := by
  rw [← Result.error?_eq_none_iff, Result.error?_mapM, List.findSome?_eq_none_iff]
  simp only [Line.error?_ofText]

/-- **Lines without obstacles are read**, and no others. -/
theorem exists_ofLines_iff :
    (∃ p, ofLines 0 [] raws = .ok p) ↔ ∀ place e, ¬ Obstacle raws place e := by
  constructor
  · rintro ⟨p, hp⟩ place e hobstacle
    obtain ⟨hlines, hlabels, hnodup⟩ := ofLines_start_eq_ok_iff.mp hp
    rw [hlabels, names_labelsFrom, Line.filterMap_label?_eq hlines] at hnodup
    cases hobstacle with
    | numeral h =>
        obtain ⟨raw, hraw, he⟩ := Option.bind_eq_some_iff.mp h
        have hnone := exists_mapM_iff.mp ⟨_, Result.mapM_of_forall₂ hlines⟩
        rw [hnone raw (List.mem_of_getElem? hraw)] at he
        cases he
    | label h =>
        exact nodup_defined_iff.mp hnodup _ _ _ h
  · intro hclear
    have hnone : ∀ raw ∈ raws, Line.overlong? raw = none := by
      intro raw hraw
      obtain ⟨place, hplace⟩ := List.getElem?_of_mem hraw
      rw [Option.eq_none_iff_forall_ne_some]
      intro e he
      refine hclear place _ (.numeral (e := e) ?_)
      rw [hplace]
      exact he
    obtain ⟨lines, hlines⟩ := exists_mapM_iff.mpr hnone
    have hraws := Result.forall₂_of_mapM hlines
    refine ⟨{ lines, labels := labelsFrom 0 lines },
      ofLines_start_eq_ok_iff.mpr ⟨hraws, rfl, ?_⟩⟩
    rw [names_labelsFrom, Line.filterMap_label?_eq hraws, nodup_defined_iff]
    intro first second name hrepeats
    exact hclear second _ (.label hrepeats)

/-- A label that a line defines is bound to that line. -/
theorem get?_labels_of_defined? {p : Program} (hp : ofLines 0 [] raws = .ok p) {name : Text}
    (h : raws[place]?.bind Line.defined? = some name) : p.labels.get? name = some place := by
  obtain ⟨hlines, hlabels, hnodup⟩ := ofLines_start_eq_ok_iff.mp hp
  obtain ⟨raw, hraw, hname⟩ := Option.bind_eq_some_iff.mp h
  obtain ⟨hplace, rfl⟩ := List.getElem?_eq_some_iff.mp hraw
  have hplace' : place < p.lines.length := by
    rw [← hlines.length_eq]
    exact hplace
  have hline : Line.ofText raws[place] = .ok p.lines[place] := hlines.get hplace hplace'
  apply Table.get?_of_mem hnodup
  rw [hlabels, mem_labelsFrom]
  refine ⟨place, ?_, (Nat.zero_add place).symm⟩
  rw [List.getElem?_eq_getElem hplace']
  exact congrArg some (Except.ok.inj (hline.symm.trans (Line.ofText_of_defined? hname)))

/-- **The first obstacle is what is reported.** -/
theorem FirstObstacle.ofLines_eq (h : FirstObstacle raws place e) :
    ofLines 0 [] raws = .error e := by
  -- the lines before the obstacle are read
  obtain ⟨p, hp⟩ := exists_ofLines_iff.mpr fun k other hother =>
    let ⟨hlt, hobstacle⟩ := Obstacle.of_take (n := place) hother
    h.clear k hlt other hobstacle
  obtain ⟨raw, hraw⟩ := h.obstacle.exists_raw
  obtain ⟨hplace, hget⟩ := List.getElem?_eq_some_iff.mp hraw
  have hlength : (raws.take place).length = place := List.length_take_of_le (Nat.le_of_lt hplace)
  have hcut : ofLines 0 [] raws =
      (ofLines place p.labels (raw :: raws.drop (place + 1))).map fun q =>
        { q with lines := p.lines ++ q.lines } := by
    have happend := ofLines_append 0 [] (raws.take place) (raws.drop place)
    rw [List.take_append_drop, hp, hlength, Nat.zero_add, List.drop_eq_getElem_cons hplace,
      hget] at happend
    exact happend
  rw [hcut, ofLines]
  cases h.obstacle with
  | numeral hlong =>
      rw [hraw] at hlong
      rw [Result.error?_eq_some_iff.mp ((Line.error?_ofText raw).trans hlong)]
      rfl
  | @label first name hrepeats =>
      have hearlier : (raws.take place)[first]?.bind Line.defined? = some name := by
        rw [List.getElem?_take_of_lt hrepeats.lt]
        exact hrepeats.earlier
      have hlater := hrepeats.later
      rw [hraw] at hlater
      rw [Line.ofText_of_defined? hlater]
      simp only [define, get?_labels_of_defined? hp hearlier]
      rfl

/-- A failure to read lines is due to the first obstacle. -/
theorem ofLines_eq_error_iff :
    ofLines 0 [] raws = .error e ↔ ∃ place, FirstObstacle raws place e := by
  constructor
  · intro he
    have hobstacle : ∃ place other, Obstacle raws place other := by
      by_contra hclear
      push Not at hclear
      obtain ⟨p, hp⟩ := exists_ofLines_iff.mpr hclear
      rw [he] at hp
      cases hp
    obtain ⟨place, other, hother⟩ := hobstacle
    obtain ⟨first, found, hfirst⟩ := hother.exists_first
    have hsame := he.symm.trans hfirst.ofLines_eq
    cases hsame
    exact ⟨first, hfirst⟩
  · rintro ⟨place, hfirst⟩
    exact hfirst.ofLines_eq

/-- Without an overlong numeral, lines fail to be read only for a label defined twice. -/
theorem exists_repeats_of_error (hshort : ∀ raw ∈ raws, Line.overlong? raw = none)
    (he : ofLines 0 [] raws = .error e) : ∃ (first second : Nat) (name : Text),
      e = .parse (.duplicateLabel name first second) ∧ Repeats raws first second name := by
  obtain ⟨place, hfirst⟩ := ofLines_eq_error_iff.mp he
  cases hfirst.obstacle with
  | numeral h =>
      obtain ⟨raw, hraw, hlong⟩ := Option.bind_eq_some_iff.mp h
      rw [hshort raw (List.mem_of_getElem? hraw)] at hlong
      cases hlong
  | label h =>
      exact ⟨_, _, _, rfl, h⟩

end Program

/-- A `MOV` with a run of zeros as its numeral. -/
def Instruction.zeroMove (n : Nat) : Text :=
  ['m', 'o', 'v', ' ', 'a', ','] ++ List.replicate n '0'

theorem Token.overlong?_zeros {n : Nat} (h : Numeral.maxDigits < n) :
    overlong? (List.replicate n '0') = some ⟨n⟩ := by
  obtain ⟨k, rfl⟩ := Nat.exists_eq_succ_of_ne_zero (Nat.ne_zero_of_lt h)
  have hlast : (List.replicate (k + 1) '0').getLast? = some '0' := by
    simp [List.getLast?_replicate]
  have hsign : Numeral.splitSign (List.replicate (k + 1) '0') =
      (false, List.replicate (k + 1) '0') := by
    rw [List.replicate_succ]
    rfl
  have hvalue : Text.digit? '0' = some 0 := by
    decide
  have hdigits : Numeral.digits? (List.replicate (k + 1) '0') =
      some (List.replicate (k + 1) 0) := by
    simp [Numeral.digits?, Text.isDigit, hvalue]
  have hnumeral : Numeral.ofToken? (List.replicate (k + 1) '0') =
      some ⟨false, List.replicate (k + 1) 0⟩ := by
    have hkeep : Numeral.dropFinalNewline (List.replicate (k + 1) '0') =
        List.replicate (k + 1) '0' := by
      unfold Numeral.dropFinalNewline
      rw [hlast, if_neg (by decide)]
    rw [Numeral.ofToken?, hsign]
    simp only [hkeep, hdigits, Option.map_some]
  rw [overlong?, hnumeral, Option.bind_some, List.length_replicate, if_neg (Nat.not_le.mpr h)]

theorem Instruction.overlong?_zeroMove {n : Nat} (h : Numeral.maxDigits < n) :
    overlong? (zeroMove n) = some ⟨n⟩ := by
  have hne : List.replicate n '0' ≠ [] := by
    rw [ne_eq, List.replicate_eq_nil_iff]
    exact Nat.ne_zero_of_lt h
  have hplain : ∀ c ∈ List.replicate n '0',
      c ≠ Operand.quote ∧ Token.separates (c, false) = false := by
    intro c hc
    rw [List.eq_of_mem_replicate hc]
    decide
  have hsplit : Token.split (zeroMove n) =
      [['m', 'o', 'v'], ['a'], List.replicate n '0'] := by
    have hcut : Token.split (['m', 'o', 'v', ' ', 'a'] ++ ',' :: List.replicate n '0') =
        Token.split ['m', 'o', 'v', ' ', 'a'] ++ Token.split (List.replicate n '0') :=
      Token.split_append_cons (by decide) (by decide) _
    have hhead : Token.split ['m', 'o', 'v', ' ', 'a'] = [['m', 'o', 'v'], ['a']] := by
      decide
    rw [Token.split_of_unbroken hne (Token.unbroken_of_plain hplain).1, hhead] at hcut
    exact hcut
  rw [overlong?, hsplit]
  simp only [List.tail_cons, List.findSome?_cons, Token.overlong?_zeros h]
  rfl

/-- The characters of such a `MOV` are those of the shortest one. -/
theorem Instruction.not_mem_zeroMove {n : Nat} {c : Char}
    (h : c ∉ ['m', 'o', 'v', ' ', 'a', ',', '0']) : c ∉ zeroMove n := by
  intro hmem
  rcases List.mem_append.mp hmem with hmem | hmem
  · exact h (List.mem_append_left ['0'] hmem)
  · rw [List.eq_of_mem_replicate hmem] at h
    simp at h

theorem Line.overlong?_zeroMove {n : Nat} (h : Numeral.maxDigits < n) :
    overlong? (Instruction.zeroMove n) = some ⟨n⟩ := by
  have hbare : Token.Bare false (Instruction.zeroMove n) :=
    Token.bare_of_not_mem (Instruction.not_mem_zeroMove (by decide))
  have hlast : (Instruction.zeroMove n).getLast? = some '0' := by
    rw [Instruction.zeroMove, List.getLast?_append, List.getLast?_replicate,
      if_neg (Nat.ne_zero_of_lt h)]
    rfl
  have htrim : Text.trim (Instruction.zeroMove n) = Instruction.zeroMove n :=
    Text.trim_of_ends rfl hlast (by decide) (by decide)
  rw [overlong?, Token.uncomment_of_bare hbare, htrim, Instruction.overlong?_zeroMove h]

/-- A numeral of more than 4300 digits keeps a source from being read, without any label. -/
theorem Program.ofSource_zeroMove {n : Nat} (h : Numeral.maxDigits < n) :
    ofSource (Instruction.zeroMove n) = .error (.numeral ⟨n⟩) := by
  have hlong : [Instruction.zeroMove n][0]?.bind Line.overlong? = some ⟨n⟩ := by
    rw [List.getElem?_cons_zero, Option.bind_some]
    exact Line.overlong?_zeroMove h
  have hobstacle : Obstacle [Instruction.zeroMove n] 0 (.numeral ⟨n⟩) :=
    .numeral hlong
  have hfirst : FirstObstacle [Instruction.zeroMove n] 0 (.numeral ⟨n⟩) :=
    ⟨hobstacle, by simp⟩
  have hnewline : '\n' ∉ Instruction.zeroMove n := Instruction.not_mem_zeroMove (by decide)
  rw [ofSource, Text.lines_of_not_mem hnewline]
  exact hfirst.ofLines_eq

end RegisterMachine
