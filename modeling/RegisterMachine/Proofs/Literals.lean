import RegisterMachine.Proofs.Labels
import RegisterMachine.Proofs.Stepping

/-!
# Literals

A quoted text is written out as it stands, whatever it looks like, and an integer as the
word that it is wrapped to.

**Contents.**
* `Token.Closed`: the texts behind which a line goes on as it begins.
* `Token.Whole`: the texts that are one token wherever they stand in a line.
* `Constant`: a text or an integer, as it is given to a message.
* `Constant.Writable`: those that can be written into a line.
* `Constant.source`, `Constant.program`: a message of constants.

**Results.**
* `Token.split_trim`: blanks around a line do not count for its tokens.
* `Line.ofText_of_split`: how a line is read whose first token does not end in a colon.
* `Token.whole_quoted`: a quoted text is one token.
* `Constant.ofText_message`: a message is read as it was meant.
* `Constant.execute_instruction`: executing it writes what its constants say.
* `runSource?_message`: from the source to the output.
-/

namespace RegisterMachine
namespace Token

variable {inside : Bool} {s t w : Text} {ts : List Text}

/-- Without quotes, the state of quotation is the same throughout. -/
theorem marked_of_quote_not_mem (h : Operand.quote ∉ t) :
    marked inside t = t.map fun c => (c, inside) := by
  induction t with
  | nil =>
      rfl
  | cons c t ih =>
      rw [List.mem_cons, not_or] at h
      rw [marked_cons, toggle_of_ne inside (Ne.symm h.1), ih h.2, List.map_cons]

theorem stateAfter_of_quote_not_mem (h : Operand.quote ∉ t) : stateAfter inside t = inside := by
  rw [stateAfter_eq_iff, List.count_eq_zero.mpr h]
  exact Even.zero

/-- Between quotes, nothing separates tokens and no comment begins. -/
theorem unbroken_and_bare_of_quote_not_mem (h : Operand.quote ∉ t) :
    Unbroken true t ∧ Bare true t := by
  unfold Unbroken Bare
  rw [marked_of_quote_not_mem h, List.forall_mem_map, List.forall_mem_map]
  exact ⟨fun _ _ => rfl, fun c _ => Bool.and_false _⟩

theorem separates_of_isBlank (hw : ∀ c ∈ w, Text.isBlank c = true) :
    ∀ c ∈ w, separates (c, false) = true := by
  intro c hc
  simp [separates, hw c hc]

/-- Blanks behind a text that leaves no quote open do not count. -/
theorem split_append_of_isBlank (hclosed : stateAfter false s = false)
    (hw : ∀ c ∈ w, Text.isBlank c = true) : split (s ++ w) = split s := by
  have hseparates := separates_of_isBlank hw
  cases w with
  | nil =>
      rw [List.append_nil]
  | cons c w =>
      have hnone : split w = [] := by
        have hskip := split_append_of_separates
          (fun d hd => hseparates d (List.mem_cons_of_mem _ hd)) []
        rw [List.append_nil] at hskip
        exact hskip
      rw [split_append_cons hclosed (hseparates c List.mem_cons_self), hnone, List.append_nil]

/-- **Blanks around a line do not count** for its tokens. -/
theorem split_trim (hclosed : stateAfter false t = false) : split (Text.trim t) = split t := by
  obtain ⟨u, v, hu, hv, hline⟩ := Text.exists_trim t
  generalize Text.trim t = body at hline
  have hbody : stateAfter false body = false := by
    rw [hline, stateAfter_append, stateAfter_of_isBlank _ hv, stateAfter_append,
      stateAfter_of_isBlank _ hu] at hclosed
    exact hclosed
  rw [hline, List.append_assoc, split_append_of_separates (separates_of_isBlank hu),
    split_append_of_isBlank hbody hv]

/-- A text behind which a line goes on as it begins. -/
structure Closed (t : Text) : Prop where
  /-- It leaves no quote open. -/
  quotes : stateAfter false t = false
  /-- No comment begins in it. -/
  bare : Bare false t
  newline : '\n' ∉ t

namespace Closed

theorem nil : Closed [] :=
  ⟨rfl, bare_of_not_mem List.not_mem_nil, List.not_mem_nil⟩

theorem append (hs : Closed s) (ht : Closed t) : Closed (s ++ t) where
  quotes := by
    rw [stateAfter_append, hs.quotes, ht.quotes]
  bare := by
    rw [bare_append, hs.quotes]
    exact ⟨hs.bare, ht.bare⟩
  newline := by
    rw [List.mem_append, not_or]
    exact ⟨hs.newline, ht.newline⟩

theorem flatMap {α : Type} {f : α → Text} {l : List α} (h : ∀ a ∈ l, Closed (f a)) :
    Closed (l.flatMap f) := by
  induction l with
  | nil =>
      exact nil
  | cons a l ih =>
      rw [List.flatMap_cons]
      exact (h a List.mem_cons_self).append (ih fun b hb => h b (List.mem_cons_of_mem _ hb))

theorem joined (h : ∀ t ∈ ts, Closed t) : Closed (Text.joined ts) := by
  have hcomma : Closed [',', ' '] :=
    ⟨rfl, bare_of_not_mem (by decide), by decide⟩
  cases ts with
  | nil =>
      exact nil
  | cons t ts =>
      rw [joined_cons]
      exact (h t List.mem_cons_self).append
        (flatMap fun s hs => hcomma.append (h s (List.mem_cons_of_mem _ hs)))

end Closed

/-- A text that is one token wherever it stands in a line. -/
structure Whole (t : Text) : Prop extends Closed t where
  ne : t ≠ []
  unbroken : Unbroken false t

/-- **A quoted text is one token**, whatever it looks like. -/
theorem whole_quoted (hquote : Operand.quote ∉ t) (hnewline : '\n' ∉ t) :
    Whole (Operand.quote :: t ++ [Operand.quote]) := by
  obtain ⟨hunbroken, hbare⟩ := unbroken_and_bare_of_quote_not_mem hquote
  have hstate : stateAfter false (Operand.quote :: t) = true :=
    @stateAfter_of_quote_not_mem true t hquote
  refine ⟨⟨?_, ?_, ?_⟩, by simp, ?_⟩
  · rw [stateAfter_append, hstate]
    rfl
  · rw [bare_append, ← List.singleton_append, bare_append]
    exact ⟨⟨bare_of_not_mem (by decide), hbare⟩, bare_of_not_mem (by decide)⟩
  · simp [Operand.quote, hnewline]
  · rw [unbroken_append, ← List.singleton_append, unbroken_append]
    exact ⟨⟨unbroken_quote false, hunbroken⟩, unbroken_quote _⟩

theorem whole_write_integer (n : Int) : Whole (Operand.write (.integer n)) := by
  obtain ⟨hunbroken, hclosed⟩ := Operand.unbroken_write_integer n
  have hplain : ∀ c ∈ Numeral.write n, c ≠ ';' ∧ c ≠ '\n' := by
    intro c hc
    rcases Numeral.mem_write hc with rfl | ⟨d, hd, rfl⟩
    · decide
    · clear hc
      revert d
      decide
  exact ⟨⟨hclosed, bare_of_not_mem fun hmem => (hplain _ hmem).1 rfl,
    fun hmem => (hplain _ hmem).2 rfl⟩, Numeral.write_ne_nil n, hunbroken⟩

theorem sequence_of_whole (h : ∀ t ∈ ts, Whole t) : Sequence ts := by
  induction ts with
  | nil =>
      exact .nil
  | cons t ts ih =>
      have ht := h t List.mem_cons_self
      exact .cons ht.ne ht.unbroken ht.quotes (ih fun s hs => h s (List.mem_cons_of_mem _ hs))

end Token

/-- A line whose first token does not end in a colon holds an instruction. -/
theorem Line.ofText_of_split {raw token : Text} {arguments : List Text}
    (hraw : Token.Closed raw) (hsplit : Token.split raw = token :: arguments)
    (htoken : token.getLast? ≠ some ':') :
    ofText raw = (arguments.mapM Operand.ofToken).map fun operands =>
      .instruction (Instruction.ofOperands (Text.trim raw) token operands) := by
  have htrim : Token.split (Text.trim raw) = token :: arguments := by
    rw [Token.split_trim hraw.quotes, hsplit]
  have hne : Text.trim raw ≠ [] := by
    intro hnil
    rw [hnil] at htrim
    cases htrim
  -- a label definition is a single token with a colon at its end
  have hlabel : definedLabel? (Text.trim raw) = none := by
    rw [Option.eq_none_iff_forall_ne_some]
    intro name hname
    rw [split_of_definedLabel? hname, eq_of_definedLabel? hname] at htrim
    obtain ⟨rfl, -⟩ := List.cons.inj htrim
    exact htoken List.getLast?_concat
  rw [ofText, Token.uncomment_of_bare hraw.bare, ofStripped, if_neg hne, hlabel,
    Instruction.ofText, htrim]
  cases harguments : arguments.mapM Operand.ofToken <;> simp [harguments, Except.map]

/-- A text or an integer, as it is given to a message. -/
inductive Constant
  | text (content : Text)
  | integer (value : Int)
deriving DecidableEq, Repr

namespace Constant

variable {c : Constant} {cs : List Constant}

/-- A constant as it is written in a program. -/
def write : Constant → Text
  | .text content => Operand.quote :: content ++ [Operand.quote]
  | .integer value => Numeral.write value

/-- The operand that is read from a constant. -/
def operand : Constant → Operand
  | .text content => .text content
  | .integer value => .integer (Word.wrap value)

/-- What a message says for a constant. -/
def said : Constant → Text
  | .text content => content
  | .integer value => Numeral.write (Word.wrap value)

/-- The constants that can be written into a line: a text without quotes and newlines, and an
integer that has not too many digits. -/
inductive Writable : Constant → Prop
  | text {content : Text} (hquote : Operand.quote ∉ content) (hnewline : '\n' ∉ content) :
      Writable (.text content)
  | integer {value : Int} (hshort : Numeral.isShowable value = true) : Writable (.integer value)

/-- The line with a message of constants. -/
def message (cs : List Constant) : Text :=
  "msg ".toList ++ Text.joined (cs.map write)

theorem Writable.ofToken_write (h : c.Writable) : Operand.ofToken c.write = .ok c.operand := by
  cases h with
  | @text content _ _ => exact Operand.ofToken_write_text content
  | integer hshort => exact Operand.ofToken_write_integer hshort

theorem Writable.whole (h : c.Writable) : Token.Whole c.write := by
  cases h with
  | text hquote hnewline => exact Token.whole_quoted hquote hnewline
  | @integer value _ => exact Token.whole_write_integer value

/-- The instruction that a message of constants is read as. -/
def instruction (cs : List Constant) : Instruction where
  opcode := .msg
  operands := cs.map operand
  token := "msg".toList
  text := Text.trim (message cs)

/-- A source with a message of constants, and the end of the program behind it. -/
def source (cs : List Constant) : Text :=
  message cs ++ '\n' :: "end".toList

/-- The program with a message of constants. -/
def program (cs : List Constant) : Program where
  lines := [.instruction (instruction cs),
    .instruction { opcode := .halt, token := "end".toList, text := "end".toList }]

/-- **A message is read as it was meant.** -/
theorem ofText_message (h : ∀ c ∈ cs, c.Writable) :
    '\n' ∉ message cs ∧ Line.ofText (message cs) = .ok (.instruction (instruction cs)) := by
  have hwhole : ∀ t ∈ cs.map write, Token.Whole t :=
    List.forall_mem_map.mpr fun c hc => (h c hc).whole
  have hclosed : Token.Closed (message cs) := by
    have hmnemonic : Token.Closed "msg ".toList :=
      ⟨rfl, Token.bare_of_not_mem (by decide), by decide⟩
    exact hmnemonic.append (.joined fun t ht => (hwhole t ht).toClosed)
  have hsplit : Token.split (message cs) = "msg".toList :: cs.map write := by
    have hcut := @Opcode.split_of_ofToken "msg".toList (by decide) (Text.joined (cs.map write))
    rw [Token.split_joined (Token.sequence_of_whole hwhole)] at hcut
    exact hcut
  have hread : (cs.map write).mapM Operand.ofToken = .ok (cs.map operand) := by
    apply Result.mapM_of_forall₂
    rw [List.forall₂_map_left_iff, List.forall₂_map_right_iff, List.forall₂_same]
    exact fun c hc => (h c hc).ofToken_write
  refine ⟨hclosed.newline, ?_⟩
  rw [Line.ofText_of_split hclosed hsplit (by decide), hread]
  rfl

theorem ofSource_source (h : ∀ c ∈ cs, c.Writable) :
    Program.ofSource (source cs) = .ok (program cs) := by
  obtain ⟨hnewline, hmessage⟩ := ofText_message h
  have hlines : (source cs).lines = [message cs, "end".toList] := by
    rw [source, Text.lines_append, Text.lines_of_not_mem hnewline]
    rfl
  rw [Program.ofSource_eq_ok_iff, hlines]
  exact ⟨.cons hmessage (.cons (by decide) .nil), rfl, List.nodup_nil⟩

theorem rendered_operands (m : Machine) (cs : List Constant) :
    m.rendered (cs.map operand) = (cs.flatMap said, none) := by
  induction cs with
  | nil =>
      rfl
  | cons c cs ih =>
      have hrender : m.render c.operand = .ok c.said := by
        cases c with
        | text content =>
            rfl
        | integer value =>
            show (Numeral.shown (Word.wrap value)).mapError _ = _
            rw [Numeral.shown_of_isShowable (Word.inRange_wrap value).isShowable]
            rfl
      simp only [List.map_cons, Machine.rendered, hrender, ih, List.flatMap_cons]

/-- **Executing a message writes what its constants say.** -/
theorem execute_instruction (p : Program) (m : Machine) (cs : List Constant) :
    (instruction cs).execute p m = { machine := (m.append (cs.flatMap said)).advance.tick } := by
  show (m.write (cs.map operand)).counted = _
  rw [Machine.write_eq, rendered_operands]
  rfl

/-- The program ends behind the message. -/
theorem proceed_program (cs : List Constant) :
    ((Run.start (program cs)).proceed none false 2).isOver = true ∧
      ((Run.start (program cs)).proceed none false 2).outcome =
        .finished (cs.flatMap said) := by
  have hmessage : (Run.start (program cs)).next none false =
      { program := program cs,
        machine := (({} : Machine).append (cs.flatMap said)).advance.tick } :=
    Run.next_of_execute rfl rfl rfl (execute_instruction (program cs) {} cs)
  have hend : (Run.start (program cs)).proceed none false 2 =
      { program := program cs,
        machine := (({} : Machine).append (cs.flatMap said)).advance.tick.finish.tick } := by
    rw [Run.proceed_succ, Run.proceed_succ, Run.proceed_zero, hmessage]
    exact Run.next_of_execute rfl rfl rfl rfl
  rw [hend]
  refine ⟨rfl, ?_⟩
  show Outcome.finished (({} : Machine).append (cs.flatMap said)).output = _
  rw [Machine.output_append]
  rfl

end Constant

/-- **From the source to the output.**  A program that writes texts and integers says the texts
as they stand, and each integer as the word that it is wrapped to. -/
theorem runSource?_message {cs : List Constant} (h : ∀ c ∈ cs, c.Writable) :
    ∃ r, (∀ fuel, 2 ≤ fuel → runSource? (Constant.source cs) none fuel = .ok (some r)) ∧
      r.outcome = .finished (cs.flatMap Constant.said) := by
  obtain ⟨hover, houtcome⟩ := Constant.proceed_program cs
  refine ⟨_, fun fuel hfuel => ?_, houtcome⟩
  rw [runSource?, Constant.ofSource_source h]
  show Except.ok ((Constant.program cs).run? none false fuel) = _
  rw [Program.run?, Run.proceed_of_le hover hfuel, if_pos hover]

/-- Texts that look like a comment, a label and an operand, and integers that are no words. -/
theorem runSource?_message_lookalikes :
    ∃ cs, Constant.source cs =
        "msg '; a, b: ', 4294967295, ' end:', '', -2147483649, '\t5 ;'\nend".toList ∧
      ∃ r, runSource? (Constant.source cs) none 2 = .ok (some r) ∧
        r.outcome = .finished "; a, b: -1 end:2147483647\t5 ;".toList := by
  obtain ⟨cs, hdef⟩ : ∃ cs, cs =
      [Constant.text "; a, b: ".toList, .integer 4294967295, .text " end:".toList, .text [],
        .integer (-2147483649), .text "\t5 ;".toList] := ⟨_, rfl⟩
  have hwritable : ∀ c ∈ cs, c.Writable := by
    subst hdef
    simp only [List.forall_mem_cons]
    exact ⟨.text (by decide) (by decide), .integer (by decide), .text (by decide) (by decide),
      .text (by decide) (by decide), .integer (by decide), .text (by decide) (by decide), by simp⟩
  obtain ⟨r, hrun, houtcome⟩ := runSource?_message hwritable
  refine ⟨cs, ?_, r, hrun 2 (Nat.le_refl 2), ?_⟩
  · subst hdef
    decide +kernel
  · rw [houtcome]
    subst hdef
    decide +kernel

end RegisterMachine
