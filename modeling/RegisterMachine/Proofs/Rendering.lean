import RegisterMachine.Proofs.Decoding
import RegisterMachine.Proofs.Tokens

/-!
# Instructions written out

An instruction is written out as its mnemonic and its operands with commas between
them.  Reading that text gives the instruction back, as long as no quoted text leaves
an odd number of quotes in front of a comma.

**Results.**
* `Numeral.ofToken?_write`: the decimal text of an integer is read as that integer.
* `Operand.ofToken_write`: an operand that was read is read again from its own text.
* `Operand.sequence_write`: written operands are tokens.
* `Instruction.ofText_write`: an instruction that was read is read again.
-/

namespace RegisterMachine
namespace Numeral

/-- The digits of a natural number. -/
theorem mem_toDigits {n : Nat} {c : Char} (h : c ∈ Nat.toDigits 10 n) :
    ∃ d < 10, c = Nat.digitChar d := by
  induction n using Nat.strongRecOn with
  | _ n ih =>
      by_cases hn : n < 10
      · rw [Nat.toDigits_of_lt_base hn, List.mem_singleton] at h
        exact ⟨n, hn, h⟩
      · rw [Nat.toDigits_of_base_le (by decide) (by omega), List.mem_append,
          List.mem_singleton] at h
        rcases h with h | h
        · exact ih (n / 10) (by omega) h
        · exact ⟨n % 10, by omega, h⟩

theorem digit?_digitChar : ∀ d < 10, Text.digit? (Nat.digitChar d) = some d := by
  decide

theorem magnitude_append (ds : List Nat) (d : Nat) :
    magnitude (ds ++ [d]) = 10 * magnitude ds + d := by
  simp [magnitude]

/-- The digits that are written for a number denote it. -/
theorem magnitude_toDigits (n : Nat) :
    magnitude ((Nat.toDigits 10 n).filterMap Text.digit?) = n := by
  induction n using Nat.strongRecOn with
  | _ n ih =>
      by_cases hn : n < 10
      · have hdigit := digit?_digitChar n hn
        simp [Nat.toDigits_of_lt_base hn, hdigit, magnitude]
      · have hlast : [Nat.digitChar (n % 10)].filterMap Text.digit? = [n % 10] := by
          simp [digit?_digitChar (n % 10) (by omega)]
        rw [Nat.toDigits_of_base_le (by decide) (by omega), List.filterMap_append, hlast,
          magnitude_append, ih (n / 10) (by omega)]
        omega

theorem isDigit_of_mem_toDigits {n : Nat} {c : Char} (h : c ∈ Nat.toDigits 10 n) :
    Text.isDigit c = true := by
  obtain ⟨d, hd, rfl⟩ := mem_toDigits h
  rw [Text.isDigit, digit?_digitChar d hd]
  rfl

theorem digits?_toDigits (n : Nat) :
    digits? (dropFinalNewline (Nat.toDigits 10 n)) =
      some ((Nat.toDigits 10 n).filterMap Text.digit?) := by
  have hlast : (Nat.toDigits 10 n).getLast? ≠ some '\n' := by
    intro hnewline
    have hdigit := isDigit_of_mem_toDigits (List.mem_of_getLast? hnewline)
    revert hdigit
    decide
  have hall : (Nat.toDigits 10 n).all Text.isDigit = true := by
    rw [List.all_eq_true]
    exact fun c => isDigit_of_mem_toDigits
  rw [dropFinalNewline, if_neg hlast, digits?, if_pos ⟨Nat.toDigits_ne_nil, hall⟩]

/-- No sign stands in front of digits. -/
theorem splitSign_toDigits (n : Nat) :
    splitSign (Nat.toDigits 10 n) = (false, Nat.toDigits 10 n) := by
  cases hdigits : Nat.toDigits 10 n with
  | nil =>
      rfl
  | cons c cs =>
      have hc : Text.isDigit c = true := isDigit_of_mem_toDigits (n := n) (by simp [hdigits])
      have hminus : c ≠ '-' := by
        rintro rfl
        revert hc
        decide
      have hplus : c ≠ '+' := by
        rintro rfl
        revert hc
        decide
      unfold splitSign
      split <;> simp_all

/-- **The decimal text of an integer is read as that integer.** -/
theorem ofToken?_write (n : Int) :
    ∃ numeral, ofToken? (write n) = some numeral ∧ numeral.value = n ∧
      numeral.digits.length ≤ (Nat.toDigits 10 n.natAbs).length := by
  cases n with
  | ofNat n =>
      refine ⟨⟨false, (Nat.toDigits 10 n).filterMap Text.digit?⟩, ?_, ?_, ?_⟩
      · simp [ofToken?, write, splitSign_toDigits, digits?_toDigits]
      · simp [value, magnitude_toDigits]
      · exact List.length_filterMap_le _ _
  | negSucc n =>
      refine ⟨⟨true, (Nat.toDigits 10 (n + 1)).filterMap Text.digit?⟩, ?_, ?_, ?_⟩
      · simp [ofToken?, write, splitSign, digits?_toDigits]
      · simp [value, magnitude_toDigits]
        omega
      · exact List.length_filterMap_le _ _

/-- A text that begins with neither a sign nor a digit is no numeral. -/
theorem ofToken?_cons {c : Char} (hminus : c ≠ '-') (hplus : c ≠ '+')
    (hdigit : Text.isDigit c = false) (rest : Text) : ofToken? (c :: rest) = none := by
  have hsign : splitSign (c :: rest) = (false, c :: rest) := by
    unfold splitSign
    split <;> simp_all
  have hdigits : digits? (dropFinalNewline (c :: rest)) = none := by
    unfold dropFinalNewline
    split
    · cases rest <;> simp [digits?, hdigit]
    · simp [digits?, hdigit]
  simp [ofToken?, hsign, hdigits]

theorem isShowable_of_inRange {n : Int} (h : Word.InRange n) : isShowable n = true := by
  have hdigits : (Nat.toDigits 10 n.natAbs).length ≤ 10 := by
    simp only [Word.InRange, Word.least, Word.greatest] at h
    rw [Nat.length_toDigits_le_iff (by decide) (by decide)]
    omega
  rw [isShowable, decide_eq_true_eq]
  exact hdigits.trans (by decide)

theorem read_write {n : Int} (h : isShowable n = true) :
    ∃ numeral, ofToken? (write n) = some numeral ∧ numeral.read = .ok n := by
  obtain ⟨numeral, hnumeral, hvalue, hlength⟩ := ofToken?_write n
  have hshort : numeral.digits.length ≤ maxDigits := hlength.trans (of_decide_eq_true h)
  exact ⟨numeral, hnumeral, by rw [read, if_pos hshort, hvalue]⟩

theorem mem_write {n : Int} {c : Char} (h : c ∈ write n) :
    c = '-' ∨ ∃ d < 10, c = Nat.digitChar d := by
  cases n with
  | ofNat n =>
      exact .inr (mem_toDigits h)
  | negSucc n =>
      rcases List.mem_cons.mp h with hminus | hdigit
      · exact .inl hminus
      · exact .inr (mem_toDigits hdigit)

theorem write_ne_nil (n : Int) : write n ≠ [] := by
  cases n with
  | ofNat n => exact Nat.toDigits_ne_nil
  | negSucc n => exact List.cons_ne_nil _ _

end Numeral

namespace Operand

variable {t : Text} {o : Operand}

/-- How an operand comes from a token. -/
theorem ofToken_cases (h : ofToken t = .ok o) :
    (∃ n, o = .integer n ∧ Word.InRange n) ∨
    (∃ content, o = .text content ∧
      (t = quote :: content ∨ t = quote :: content ++ [quote])) ∨
    o = .register t := by
  unfold ofToken at h
  cases hnumeral : Numeral.ofToken? t with
  | some numeral =>
      rw [hnumeral] at h
      obtain ⟨value, -, rfl⟩ := Result.map_eq_ok.mp h
      exact .inl ⟨_, rfl, Word.inRange_wrap value⟩
  | none =>
      rw [hnumeral] at h
      cases h
      refine .inr ?_
      cases t with
      | nil =>
          exact .inr rfl
      | cons c rest =>
          by_cases hc : c = quote
          · subst hc
            refine .inl ⟨unquote rest, by simp [ofWord], ?_⟩
            by_cases hlast : rest.getLast? = some quote
            · right
              rw [unquote, if_pos hlast, List.cons_append,
                List.dropLast_append_getLast? quote hlast]
            · left
              rw [unquote, if_neg hlast]
          · exact .inr (by simp [ofWord, hc])

/-- An integer that is not too long is read from its own text, and wrapped. -/
theorem ofToken_write_integer {n : Int} (h : Numeral.isShowable n = true) :
    ofToken (write (.integer n)) = .ok (.integer (Word.wrap n)) := by
  obtain ⟨numeral, hnumeral, hread⟩ := Numeral.read_write h
  rw [ofToken, write, hnumeral]
  simp [hread, Except.map]

theorem ofToken_write_text (content : Text) :
    ofToken (write (.text content)) = .ok (.text content) := by
  have hnumeral : Numeral.ofToken? (write (.text content)) = none :=
    Numeral.ofToken?_cons (by decide) (by decide) (by decide) (content ++ [quote])
  rw [ofToken, hnumeral]
  simp [write, ofWord, unquote]

/-- **An operand that was read is read again** from its own text. -/
theorem ofToken_write (h : ofToken t = .ok o) : ofToken o.write = .ok o := by
  rcases ofToken_cases h with ⟨n, rfl, hn⟩ | ⟨content, rfl, -⟩ | rfl
  · rw [ofToken_write_integer (Numeral.isShowable_of_inRange hn), Word.wrap_of_inRange hn]
  · exact ofToken_write_text content
  · exact h

theorem write_ne_nil (h : ofToken t = .ok o) (ht : t ≠ []) : o.write ≠ [] := by
  rcases ofToken_cases h with ⟨n, rfl, -⟩ | ⟨content, rfl, -⟩ | rfl
  · exact Numeral.write_ne_nil n
  · exact List.cons_ne_nil _ _
  · exact ht

theorem unbroken_write_integer (n : Int) : Token.Unbroken false (write (.integer n)) ∧
    Token.stateAfter false (write (.integer n)) = false := by
  apply Token.unbroken_of_plain
  intro c hc
  rcases Numeral.mem_write hc with rfl | ⟨d, hd, rfl⟩
  · decide
  · clear hc
    revert d
    decide

theorem unbroken_write (h : ofToken t = .ok o) (ht : Token.Unbroken false t) :
    Token.Unbroken false o.write := by
  rcases ofToken_cases h with ⟨n, rfl, -⟩ | ⟨content, rfl, htoken⟩ | rfl
  · exact (unbroken_write_integer n).1
  · have hcontent : Token.Unbroken false (quote :: content) := by
      rcases htoken with rfl | rfl
      · exact ht
      · exact (Token.unbroken_append.mp ht).1
    exact Token.unbroken_append.mpr ⟨hcontent, Token.unbroken_quote _⟩
  · exact ht

/-- What is written for an operand leaves no quote open, unless its content does or it is the
name of a register that does. -/
theorem closed_write (h : ofToken t = .ok o) (ht : Token.stateAfter false t = false)
    (heven : ∀ content, o = .text content → Even (content.count quote)) :
    Token.stateAfter false o.write = false := by
  rcases ofToken_cases h with ⟨n, rfl, -⟩ | ⟨content, rfl, -⟩ | rfl
  · exact (unbroken_write_integer n).2
  · rw [Token.stateAfter_eq_iff]
    have hcount : (write (.text content)).count quote = content.count quote + 2 := by
      simp [write]
    rw [hcount]
    exact (heven content rfl).add (by decide)
  · exact ht

/-- **Written operands are tokens** where the operands come from tokens and no quoted text has
an odd number of quotes in it. -/
theorem sequence_write {ts : List Text} {os : List Operand} (hts : Token.Sequence ts)
    (hos : List.Forall₂ (fun t o => ofToken t = .ok o) ts os)
    (heven : ∀ content, .text content ∈ os → Even (content.count quote)) :
    Token.Sequence (os.map write) := by
  induction hts generalizing os with
  | nil =>
      cases hos
      exact .nil
  | last hne hunbroken =>
      cases hos with
      | cons ho hos =>
          cases hos
          exact .last (write_ne_nil ho hne) (unbroken_write ho hunbroken)
  | cons hne hunbroken hclosed _ ih =>
      cases hos with
      | @cons _ o _ os ho hos =>
          have hfirst : ∀ content, o = .text content → Even (content.count quote) :=
            fun content hcontent => heven content (by simp [hcontent])
          exact .cons (write_ne_nil ho hne) (unbroken_write ho hunbroken)
            (closed_write ho hclosed hfirst)
            (ih hos fun content hcontent => heven content (List.mem_cons_of_mem _ hcontent))

end Operand

namespace Instruction

variable {operands : List Operand}

/-- The operands of an instruction are those it was made of, some as labels. -/
theorem recast_ofOperands (text token : Text) (operands : List Operand) :
    List.Forall₂ Operand.Recast operands (ofOperands text token operands).operands := by
  cases hcheck : check (Opcode.ofToken token) operands with
  | error defect =>
      simp only [ofOperands, hcheck, List.forall₂_same]
      exact fun o _ => .same o
  | ok fitted =>
      simp only [ofOperands, hcheck]
      exact recast_of_check hcheck

theorem write_ofOperands (text : Text) {token : Text} (htoken : token ≠ [])
    (operands : List Operand) :
    (ofOperands text token operands).write =
      Text.joined (token :: operands.map Operand.write) := by
  have hsame : (ofOperands text token operands).token = token := by
    simp only [ofOperands]
    cases check (Opcode.ofToken token) operands <;> rfl
  rw [write, hsame, if_neg htoken,
    Operand.Recast.map_write_eq (recast_ofOperands text token operands)]

/-- A mnemonic and operands that were read from a line are read again when they are written
out. -/
theorem ofText_joined {token : Text} {arguments : List Text}
    (hts : Token.Sequence (token :: arguments))
    (hoperands : List.Forall₂ (fun t o => Operand.ofToken t = .ok o) arguments operands)
    (heven : ∀ content, .text content ∈ operands → Even (content.count Operand.quote)) :
    ofText (Text.joined (token :: operands.map Operand.write)) =
      .ok (ofOperands (Text.joined (token :: operands.map Operand.write)) token operands) := by
  have hsequence : Token.Sequence (token :: operands.map Operand.write) := by
    cases hts with
    | last hne hunbroken =>
        cases hoperands
        exact .last hne hunbroken
    | cons hne hunbroken hclosed hts =>
        exact .cons hne hunbroken hclosed (Operand.sequence_write hts hoperands heven)
  have hread : (operands.map Operand.write).mapM Operand.ofToken = .ok operands := by
    apply Result.mapM_of_forall₂
    rw [List.forall₂_map_left_iff, List.forall₂_same]
    intro o ho
    obtain ⟨t, ht⟩ := Result.exists_of_forall₂ hoperands ho
    exact Operand.ofToken_write ht
  rw [ofText, Token.split_joined hsequence]
  simp [hread, Except.map]

/-- **Instructions are read again from what is written out for them.**  Reading an instruction
and writing it out gives a text that is read as the same instruction, if each of its quoted
texts has an even number of quotes in it; a single operand needs no such condition. -/
theorem ofText_write :
    (∀ (text : Text) (i : Instruction), ofText text = .ok i →
      (∀ content, .text content ∈ i.operands → Even (content.count Operand.quote)) →
      ofText i.write = .ok { i with text := i.write }) ∧
    (∀ (token : Text) (operand : Operand), Operand.ofToken token = .ok operand →
      Operand.ofToken operand.write = .ok operand) := by
  refine ⟨?_, fun token operand h => Operand.ofToken_write h⟩
  intro text i h heven
  have hts := Token.sequence_split text
  unfold ofText at h
  cases htokens : Token.split text with
  | nil =>
      rw [htokens] at h
      cases h
      rfl
  | cons token arguments =>
      rw [htokens] at h hts
      obtain ⟨operands, hoperands, rfl⟩ := Result.map_eq_ok.mp h
      have htoken : token ≠ [] := by
        cases hts <;> assumption
      have hread := Result.forall₂_of_mapM hoperands
      -- the condition is on the operands in their slots, where every quoted text still is
      have hcontents : ∀ content, .text content ∈ operands →
          Even (content.count Operand.quote) := by
        intro content hcontent
        apply heven
        exact (Operand.Recast.mem_iff (by simp) (by simp)
          (recast_ofOperands text token operands)).mpr hcontent
      rw [write_ofOperands text htoken, ofText_joined hts hread hcontents, ofOperands_eq,
        ofOperands_eq text]

-- an odd number of quotes in a quoted text turns the quotation of the rest of the line around
example : ∃ i, ofText "msg 'a'b, x".toList = .ok i ∧
    i.operands = [.text "a'b".toList, .register ['x']] ∧
    (ofText i.write).map (·.operands) = .ok [.text "a'b', x".toList] :=
  ⟨_, rfl, by decide +kernel, by decide +kernel⟩

/-- An integer that wraps around, a comma in a quoted text, a blank in a name, and a quote that
is left open. -/
theorem ofText_write_msg :
    ∃ i, ofText "msg\t-4294967295,'a, b' x' y'z 'open; ".toList = .ok i ∧
      i.operands = [.integer 1, .text "a, b".toList, .register "x' y'z".toList,
        .text "open; ".toList] ∧
      i.write = "msg, 1, 'a, b', x' y'z, 'open; '".toList ∧
      ofText i.write = .ok { i with text := i.write } ∧
      Operand.ofToken "+007".toList = .ok (.integer 7) ∧
      Operand.ofToken (Operand.write (.integer 7)) = .ok (.integer 7) := by
  obtain ⟨hinstruction, hoperand⟩ := ofText_write
  obtain ⟨i, hi⟩ : ∃ i, i =
      ({ opcode := .msg
         operands := [.integer 1, .text "a, b".toList, .register "x' y'z".toList,
           .text "open; ".toList]
         token := "msg".toList
         text := "msg\t-4294967295,'a, b' x' y'z 'open; ".toList } : Instruction) := ⟨_, rfl⟩
  have htext : ofText "msg\t-4294967295,'a, b' x' y'z 'open; ".toList = .ok i := by
    subst hi
    decide +kernel
  have heven : ∀ content, .text content ∈ i.operands → Even (content.count Operand.quote) := by
    subst hi
    rintro content hcontent
    simp only [List.mem_cons, Operand.text.injEq, reduceCtorEq, List.not_mem_nil, false_or,
      or_false] at hcontent
    rcases hcontent with rfl | rfl <;> decide
  have htoken : Operand.ofToken "+007".toList = .ok (.integer 7) := by
    decide +kernel
  refine ⟨i, htext, ?_, ?_, hinstruction _ i htext heven, htoken, hoperand _ _ htoken⟩
  · rw [hi]
  · subst hi
    decide +kernel

end Instruction
end RegisterMachine
