import RegisterMachine.Action
import RegisterMachine.Proofs.Result

/-!
# What decoding yields

Decoding checks the operands of an operation once, so that execution need not
look at them again.  This module says what the check has established about an
instruction that was read from a text.

**Contents.**
* `Slot.Takes`: the operands that a slot takes.
* `Operand.Recast`: an operand and what a slot makes of it.
* `Instruction.Decoded`: what is known of an instruction that was read.
* `Instruction.Form`: the forms that such an instruction can have.

**Results.**
* `Instruction.fitAll_takes`, `Instruction.check_takes`: operands that pass the
  check match the slots of the operation in number and kind.
* `Instruction.decoded_ofText`: every instruction read from a text is decoded.
* `Instruction.Decoded.form`: every decoded instruction has one of the forms.
-/

namespace RegisterMachine

/-- The operands that a slot takes. -/
inductive Slot.Takes : Slot → Operand → Prop
  | register (name : Text) : Takes .register (.register name)
  | readRegister (name : Text) : Takes .value (.register name)
  | readInteger (n : Int) : Takes .value (.integer n)
  | target (name : Text) : Takes .target (.label name)

/-- An operand as it stands in a slot: itself, or the label of that name. -/
inductive Operand.Recast : Operand → Operand → Prop
  | same (operand : Operand) : Recast operand operand
  | label (name : Text) : Recast (.register name) (.label name)

namespace Operand.Recast

variable {operand fitted : Operand} {operands others : List Operand}

theorem write_eq (h : Recast operand fitted) : fitted.write = operand.write := by
  cases h <;> rfl

theorem map_write_eq (h : List.Forall₂ Recast operands others) :
    others.map write = operands.map write := by
  induction h with
  | nil => rfl
  | cons hfirst _ ih => rw [List.map_cons, List.map_cons, hfirst.write_eq, ih]

/-- An operand that holds no name stays the same. -/
theorem eq_iff {literal : Operand} (hlabel : ∀ name, literal ≠ .label name)
    (hregister : ∀ name, literal ≠ .register name) (h : Recast operand fitted) :
    literal = fitted ↔ literal = operand := by
  cases h with
  | same => rfl
  | label name => simp [hlabel, hregister]

theorem mem_iff {literal : Operand} (hlabel : ∀ name, literal ≠ .label name)
    (hregister : ∀ name, literal ≠ .register name)
    (h : List.Forall₂ Recast operands others) : literal ∈ others ↔ literal ∈ operands := by
  induction h with
  | nil => rfl
  | cons hfirst _ ih =>
      rw [List.mem_cons, List.mem_cons, hfirst.eq_iff hlabel hregister, ih]

end Operand.Recast

namespace Slot

theorem takes_of_fit {slot : Slot} {operand fitted : Operand}
    (h : slot.fit operand = some fitted) : slot.Takes fitted := by
  cases slot <;> cases operand <;> simp only [fit, Option.some.injEq, reduceCtorEq] at h
  · subst h
    exact .register _
  · subst h
    exact .readInteger _
  · subst h
    exact .readRegister _
  · subst h
    exact .target _

theorem recast_of_fit {slot : Slot} {operand fitted : Operand}
    (h : slot.fit operand = some fitted) : operand.Recast fitted := by
  cases slot <;> cases operand <;> simp only [fit, Option.some.injEq, reduceCtorEq] at h
  all_goals subst h
  · exact .same _
  · exact .same _
  · exact .same _
  · exact .label _

end Slot

/-- What is known of an instruction that was read from a text. -/
structure Instruction.Decoded (i : Instruction) : Prop where
  /-- Exactly the invalid instructions have a defect. -/
  invalid_iff : i.opcode = .invalid ↔ i.defect ≠ none
  /-- The operands match the slots of the operation in number and kind. -/
  takes : ∀ slots, i.opcode.slots? = some slots → List.Forall₂ Slot.Takes slots i.operands
  /-- Where an operation has no slots, no operand is a label. -/
  unlabelled : i.opcode = .msg ∨ i.opcode = .unknown ∨ i.opcode = .invalid →
    ∀ name, .label name ∉ i.operands
  /-- Every integer is a word. -/
  words : ∀ n, .integer n ∈ i.operands → Word.InRange n
  /-- A defect says what is wrong. -/
  explained : ∀ defect, i.defect = some defect → defect.reason ≠ []

namespace Operand

/-- An operand as it comes from a token: a word, a text or the name of a register. -/
def IsPlain : Operand → Prop
  | .integer n => Word.InRange n
  | .text _ => True
  | .label _ => False
  | .register _ => True

theorem isPlain_ofWord (token : Text) : (ofWord token).IsPlain := by
  cases token with
  | nil =>
      trivial
  | cons c rest =>
      by_cases h : c = quote <;> simp [ofWord, h, IsPlain]

theorem isPlain_ofToken {token : Text} {operand : Operand}
    (h : ofToken token = .ok operand) : operand.IsPlain := by
  unfold ofToken at h
  cases hnumeral : Numeral.ofToken? token with
  | none =>
      rw [hnumeral] at h
      cases h
      exact isPlain_ofWord token
  | some numeral =>
      rw [hnumeral] at h
      obtain ⟨value, -, rfl⟩ := Result.map_eq_ok.mp h
      exact Word.inRange_wrap value

/-- Every operand of a list of tokens is plain. -/
theorem isPlain_of_mem_mapM {tokens : List Text} {operands : List Operand}
    (h : tokens.mapM ofToken = .ok operands) : ∀ o ∈ operands, o.IsPlain := by
  intro o ho
  obtain ⟨token, htoken⟩ := Result.exists_of_forall₂ (Result.forall₂_of_mapM h) ho
  exact isPlain_ofToken htoken

end Operand

namespace Opcode

theorem mnemonic_ne_nil (o : Opcode) : o.mnemonic ≠ [] := by
  cases o with
  | arithmetic operation => cases operation <;> simp [mnemonic]
  | branch relation => cases relation <;> simp [mnemonic]
  | _ => simp [mnemonic]

/-- No token names the operation of an invalid instruction. -/
theorem ofToken_ne_invalid (token : Text) : ofToken token ≠ .invalid := by
  unfold ofToken
  cases hfound : genuine.find? fun o => o.mnemonic == Text.capitals token with
  | none =>
      simp
  | some o =>
      have hmem : o ∈ genuine := List.mem_of_find?_eq_some hfound
      rintro rfl
      revert hmem
      decide

theorem slots?_eq_none_iff (o : Opcode) :
    o.slots? = none ↔ o = .msg ∨ o = .unknown ∨ o = .invalid := by
  cases o <;> simp [slots?]

end Opcode

namespace Defect

theorem reason_empty_ne_nil : Defect.empty.reason ≠ [] := by
  decide

theorem reason_count_ne_nil (opcode : Opcode) (expected actual : Nat) :
    (Defect.count opcode expected actual).reason ≠ [] := by
  have hne := opcode.mnemonic_ne_nil
  show opcode.mnemonic ++ _ ++ _ ++ _ ++ _ ≠ []
  simp only [ne_eq, List.append_eq_nil_iff, hne, false_and, not_false_eq_true]

theorem reason_kind_ne_nil (opcode : Opcode) (slot : Slot) (operand : Operand) :
    (Defect.kind opcode slot operand).reason ≠ [] := by
  have hne := opcode.mnemonic_ne_nil
  show opcode.mnemonic ++ _ ++ _ ++ _ ++ _ ≠ []
  simp only [ne_eq, List.append_eq_nil_iff, hne, false_and, not_false_eq_true]

end Defect

namespace Instruction

theorem fitAll_cons_eq_ok {opcode : Opcode} {slot : Slot} {slots : List Slot}
    {operand : Operand} {operands fitted : List Operand} :
    fitAll opcode (slot :: slots) (operand :: operands) = .ok fitted ↔
      ∃ first others, slot.fit operand = some first ∧
        fitAll opcode slots operands = .ok others ∧ fitted = first :: others := by
  cases hfit : slot.fit operand with
  | none =>
      simp [fitAll, hfit]
  | some first =>
      simp only [fitAll, hfit, Result.map_eq_ok]
      constructor
      · rintro ⟨others, hothers, rfl⟩
        exact ⟨first, others, rfl, hothers, rfl⟩
      · rintro ⟨_, others, hfirst, hothers, rfl⟩
        cases hfirst
        exact ⟨others, hothers, rfl⟩

/-- Operands that fit into as many slots are taken by them, one by one. -/
theorem fitAll_takes {opcode : Opcode} {slots : List Slot} {operands fitted : List Operand}
    (hlength : operands.length = slots.length)
    (h : fitAll opcode slots operands = .ok fitted) :
    List.Forall₂ Slot.Takes slots fitted := by
  induction slots generalizing operands fitted with
  | nil =>
      have hnil : operands = [] := List.length_eq_zero_iff.mp hlength
      subst hnil
      cases h
      exact .nil
  | cons slot slots ih =>
      cases operands with
      | nil =>
          simp at hlength
      | cons operand operands =>
          obtain ⟨first, others, hfit, hrest, rfl⟩ := fitAll_cons_eq_ok.mp h
          refine .cons (Slot.takes_of_fit hfit) (ih ?_ hrest)
          simpa using hlength

/-- Operands that fit into as many slots are the same, but for names that become labels. -/
theorem recast_of_fitAll {opcode : Opcode} {slots : List Slot} {operands fitted : List Operand}
    (hlength : operands.length = slots.length)
    (h : fitAll opcode slots operands = .ok fitted) :
    List.Forall₂ Operand.Recast operands fitted := by
  induction slots generalizing operands fitted with
  | nil =>
      have hnil : operands = [] := List.length_eq_zero_iff.mp hlength
      subst hnil
      cases h
      exact .nil
  | cons slot slots ih =>
      cases operands with
      | nil =>
          simp at hlength
      | cons operand operands =>
          obtain ⟨first, others, hfit, hrest, rfl⟩ := fitAll_cons_eq_ok.mp h
          exact .cons (Slot.recast_of_fit hfit) (ih (by simpa using hlength) hrest)

/-- The defect of operands that do not fit into slots says what is wrong. -/
theorem reason_ne_nil_of_fitAll {opcode : Opcode} {slots : List Slot}
    {operands : List Operand} {defect : Defect}
    (h : fitAll opcode slots operands = .error defect) : defect.reason ≠ [] := by
  induction slots generalizing operands with
  | nil =>
      cases h
  | cons slot slots ih =>
      cases operands with
      | nil =>
          cases h
      | cons operand operands =>
          cases hfit : slot.fit operand with
          | none =>
              simp only [fitAll, hfit, Except.error.injEq] at h
              subst h
              exact Defect.reason_kind_ne_nil opcode slot operand
          | some first =>
              cases hrest : fitAll opcode slots operands with
              | error other =>
                  simp only [fitAll, hfit, hrest, Except.map, Except.error.injEq] at h
                  subst h
                  exact ih hrest
              | ok others =>
                  simp [fitAll, hfit, hrest, Except.map] at h

theorem reason_ne_nil_of_check {opcode : Opcode} {operands : List Operand} {defect : Defect}
    (h : check opcode operands = .error defect) : defect.reason ≠ [] := by
  unfold check at h
  cases hslots : opcode.slots? with
  | none =>
      simp [hslots] at h
  | some slots =>
      by_cases hlength : operands.length = slots.length
      · simp only [hslots, hlength, if_true] at h
        exact reason_ne_nil_of_fitAll h
      · simp only [hslots, hlength, if_false, Except.error.injEq] at h
        subst h
        exact Defect.reason_count_ne_nil opcode _ _

/-- Operands that pass the check match the slots of the operation. -/
theorem check_takes {opcode : Opcode} {operands fitted : List Operand} {slots : List Slot}
    (hslots : opcode.slots? = some slots) (h : check opcode operands = .ok fitted) :
    List.Forall₂ Slot.Takes slots fitted := by
  simp only [check, hslots] at h
  by_cases hlength : operands.length = slots.length
  · rw [if_pos hlength] at h
    exact fitAll_takes hlength h
  · simp [hlength] at h

/-- Operands of an operation without slots pass the check as they are. -/
theorem eq_of_check {opcode : Opcode} {operands fitted : List Operand}
    (hslots : opcode.slots? = none) (h : check opcode operands = .ok fitted) :
    fitted = operands := by
  simp only [check, hslots, Except.ok.injEq] at h
  exact h.symm

/-- The check leaves the operands as they are, but for names that become labels. -/
theorem recast_of_check {opcode : Opcode} {operands fitted : List Operand}
    (h : check opcode operands = .ok fitted) : List.Forall₂ Operand.Recast operands fitted := by
  cases hslots : opcode.slots? with
  | none =>
      rw [eq_of_check hslots h, List.forall₂_same]
      exact fun o _ => .same o
  | some slots =>
      simp only [check, hslots] at h
      by_cases hlength : operands.length = slots.length
      · rw [if_pos hlength] at h
        exact recast_of_fitAll hlength h
      · simp [hlength] at h

/-- Its text is all that an instruction takes from the line it was read from. -/
theorem ofOperands_eq (text token : Text) (operands : List Operand) :
    ofOperands text token operands = { ofOperands [] token operands with text } := by
  simp only [ofOperands]
  cases check (Opcode.ofToken token) operands <;> rfl

/-- Plain operands make a decoded instruction. -/
theorem decoded_ofOperands (text token : Text) {operands : List Operand}
    (hplain : ∀ o ∈ operands, o.IsPlain) : (ofOperands text token operands).Decoded := by
  have hunlabelled : ∀ name, .label name ∉ operands := fun name hname => hplain _ hname
  have hwords : ∀ n, .integer n ∈ operands → Word.InRange n := fun n hn => hplain _ hn
  have hvalid : Opcode.ofToken token ≠ .invalid := Opcode.ofToken_ne_invalid token
  cases hcheck : check (Opcode.ofToken token) operands with
  | error defect =>
      simp only [ofOperands, hcheck]
      refine ⟨by simp, by simp [Opcode.slots?], fun _ => hunlabelled, hwords, ?_⟩
      rintro _ ⟨⟩
      exact reason_ne_nil_of_check hcheck
  | ok fitted =>
      simp only [ofOperands, hcheck]
      refine ⟨by simp [hvalid], fun slots hslots => check_takes hslots hcheck, ?_, ?_, by simp⟩
      · intro hopcode
        have hslots := (Opcode.slots?_eq_none_iff _).mpr hopcode
        rw [eq_of_check hslots hcheck]
        exact hunlabelled
      · intro n hn
        apply hwords
        exact (Operand.Recast.mem_iff (by simp) (by simp) (recast_of_check hcheck)).mp hn

/-- Every instruction that was read from a text is decoded. -/
theorem decoded_ofText {text : Text} {i : Instruction} (h : ofText text = .ok i) :
    i.Decoded := by
  unfold ofText at h
  cases htokens : Token.split text with
  | nil =>
      rw [htokens] at h
      cases h
      refine ⟨by simp, by simp [Opcode.slots?], by simp, by simp, ?_⟩
      rintro _ ⟨⟩
      exact Defect.reason_empty_ne_nil
  | cons token arguments =>
      rw [htokens] at h
      obtain ⟨operands, hoperands, rfl⟩ := Result.map_eq_ok.mp h
      exact decoded_ofOperands text token (Operand.isPlain_of_mem_mapM hoperands)

/-- The forms of a decoded instruction, with the action that belongs to each. -/
inductive Form (i : Instruction) : Action → Prop
  | mov {name : Text} {source : Operand} (hopcode : i.opcode = .mov)
      (hoperands : i.operands = [.register name, source])
      (hsource : Slot.value.Takes source) :
      Form i (.assign (.register name) source)
  | inc {name : Text} (hopcode : i.opcode = .inc) (hoperands : i.operands = [.register name]) :
      Form i (.combine .add (.register name) (.integer 1))
  | dec {name : Text} (hopcode : i.opcode = .dec) (hoperands : i.operands = [.register name]) :
      Form i (.combine .sub (.register name) (.integer 1))
  | arithmetic {operation : Arithmetic} {name : Text} {source : Operand}
      (hopcode : i.opcode = .arithmetic operation)
      (hoperands : i.operands = [.register name, source])
      (hsource : Slot.value.Takes source) :
      Form i (.combine operation (.register name) source)
  | compare {lhs rhs : Operand} (hopcode : i.opcode = .compare)
      (hoperands : i.operands = [lhs, rhs])
      (hlhs : Slot.value.Takes lhs) (hrhs : Slot.value.Takes rhs) :
      Form i (.compare lhs rhs)
  | jump {name : Text} (hopcode : i.opcode = .jump) (hoperands : i.operands = [.label name]) :
      Form i (.jump (.label name))
  | branch {relation : Relation} {name : Text} (hopcode : i.opcode = .branch relation)
      (hoperands : i.operands = [.label name]) :
      Form i (.branch relation (.label name))
  | call {name : Text} (hopcode : i.opcode = .call) (hoperands : i.operands = [.label name]) :
      Form i (.call (.label name))
  | ret (hopcode : i.opcode = .ret) (hoperands : i.operands = []) : Form i .ret
  | msg (hopcode : i.opcode = .msg) (hunlabelled : ∀ name, .label name ∉ i.operands) :
      Form i (.write i.operands)
  | halt (hopcode : i.opcode = .halt) (hoperands : i.operands = []) : Form i .halt
  | unknown (hopcode : i.opcode = .unknown) : Form i (.fail (.unknownOpcode i.token))
  | invalid {defect : Defect} (hopcode : i.opcode = .invalid)
      (hdefect : i.defect = some defect) :
      Form i (.fail (.malformed defect.reason))

namespace Decoded

variable {i : Instruction}

theorem nullary (h : i.Decoded) (hslots : i.opcode.slots? = some []) : i.operands = [] :=
  List.forall₂_nil_left_iff.mp (h.takes _ hslots)

theorem unary (h : i.Decoded) {slot : Slot} (hslots : i.opcode.slots? = some [slot]) :
    ∃ a, i.operands = [a] ∧ slot.Takes a := by
  obtain ⟨a, rest, ha, hrest, hoperands⟩ := List.forall₂_cons_left_iff.mp (h.takes _ hslots)
  rw [List.forall₂_nil_left_iff.mp hrest] at hoperands
  exact ⟨a, hoperands, ha⟩

theorem binary (h : i.Decoded) {slot other : Slot}
    (hslots : i.opcode.slots? = some [slot, other]) :
    ∃ a b, i.operands = [a, b] ∧ slot.Takes a ∧ other.Takes b := by
  obtain ⟨a, rest, ha, hrest, hoperands⟩ := List.forall₂_cons_left_iff.mp (h.takes _ hslots)
  obtain ⟨b, rest', hb, hrest', rfl⟩ := List.forall₂_cons_left_iff.mp hrest
  rw [List.forall₂_nil_left_iff.mp hrest'] at hoperands
  exact ⟨a, b, hoperands, ha, hb⟩

/-- The complaint about a decoded instruction that is invalid is its defect. -/
theorem complaint_eq (h : i.Decoded) {defect : Defect} (hdefect : i.defect = some defect) :
    i.complaint = defect.reason := by
  simp [complaint, hdefect, h.explained defect hdefect]

/-- Every decoded instruction has one of the forms. -/
theorem form (h : i.Decoded) : i.Form i.action := by
  cases hopcode : i.opcode with
  | mov =>
      obtain ⟨a, source, hoperands, ha, hsource⟩ := h.binary (by rw [hopcode]; rfl)
      cases ha with
      | register name =>
          simp only [action, hopcode, hoperands, Action.binary]
          exact .mov hopcode hoperands hsource
  | inc =>
      obtain ⟨a, hoperands, ha⟩ := h.unary (by rw [hopcode]; rfl)
      cases ha with
      | register name =>
          simp only [action, hopcode, hoperands, Action.unary]
          exact .inc hopcode hoperands
  | dec =>
      obtain ⟨a, hoperands, ha⟩ := h.unary (by rw [hopcode]; rfl)
      cases ha with
      | register name =>
          simp only [action, hopcode, hoperands, Action.unary]
          exact .dec hopcode hoperands
  | arithmetic operation =>
      obtain ⟨a, source, hoperands, ha, hsource⟩ := h.binary (by rw [hopcode]; rfl)
      cases ha with
      | register name =>
          simp only [action, hopcode, hoperands, Action.binary]
          exact .arithmetic hopcode hoperands hsource
  | jump =>
      obtain ⟨a, hoperands, ha⟩ := h.unary (by rw [hopcode]; rfl)
      cases ha with
      | target name =>
          simp only [action, hopcode, hoperands, Action.unary]
          exact .jump hopcode hoperands
  | compare =>
      obtain ⟨lhs, rhs, hoperands, hlhs, hrhs⟩ := h.binary (by rw [hopcode]; rfl)
      simp only [action, hopcode, hoperands, Action.binary]
      exact .compare hopcode hoperands hlhs hrhs
  | branch relation =>
      obtain ⟨a, hoperands, ha⟩ := h.unary (by rw [hopcode]; rfl)
      cases ha with
      | target name =>
          simp only [action, hopcode, hoperands, Action.unary]
          exact .branch hopcode hoperands
  | call =>
      obtain ⟨a, hoperands, ha⟩ := h.unary (by rw [hopcode]; rfl)
      cases ha with
      | target name =>
          simp only [action, hopcode, hoperands, Action.unary]
          exact .call hopcode hoperands
  | ret =>
      simp only [action, hopcode]
      exact .ret hopcode (h.nullary (by rw [hopcode]; rfl))
  | msg =>
      simp only [action, hopcode]
      exact .msg hopcode (h.unlabelled (.inl hopcode))
  | halt =>
      simp only [action, hopcode]
      exact .halt hopcode (h.nullary (by rw [hopcode]; rfl))
  | unknown =>
      simp only [action, hopcode]
      exact .unknown hopcode
  | invalid =>
      obtain ⟨defect, hdefect⟩ := Option.ne_none_iff_exists'.mp (h.invalid_iff.mp hopcode)
      simp only [action, hopcode, h.complaint_eq hdefect]
      exact .invalid hopcode hdefect

/-- The operation of a decoded instruction is known from its action. -/
theorem opcode_of_call (hi : i.Decoded) {target : Operand} (h : i.action = .call target) :
    i.opcode = .call := by
  have hform := hi.form
  rw [h] at hform
  cases hform with
  | call hopcode _ => exact hopcode

theorem opcode_of_halt (hi : i.Decoded) (h : i.action = .halt) : i.opcode = .halt := by
  have hform := hi.form
  rw [h] at hform
  cases hform with
  | halt hopcode _ => exact hopcode

end Decoded
end Instruction
end RegisterMachine
