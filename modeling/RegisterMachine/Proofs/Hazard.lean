import RegisterMachine.InstructionSet
import RegisterMachine.Proofs.Decoding

/-!
# When an instruction fails

The faults of a decoded instruction are told in advance by a list of hazards,
each with its own condition on the instruction, the program and the machine.
Executing the instruction raises the first hazard that applies, and succeeds
where none does, as long as no integer has to be shown that is too long for it.

**Contents.**
* `Machine.lacks`, `Machine.isOverlong`, `Machine.spell`: the two reasons why an operand
  has no text, and the text that it has otherwise.
* `Instruction.reads`, `Instruction.target?`: the registers that an instruction
  reads and the label that it goes to.
* `Instruction.hazards`, `Instruction.firstHazard`: what can go wrong, in order.
* `Instruction.shows`, `Instruction.isOverlong`: the operands whose values are shown, and
  whether one of them is too long.
* `Fault.IsMismatch`, `Fault.IsForeign`: the faults of an instruction that was not decoded,
  and those that no program is at fault for.

**Results.**
* `Machine.render_cases`: an operand is rendered, or names an unset register, or is too long.
* `Instruction.fault_execute`: a decoded instruction raises its first hazard, unless it has
  to show an integer that is too long.
* `Instruction.Decoded.not_isOverlong_of_words`: nothing is too long where registers hold words.
-/

namespace RegisterMachine

namespace Operand

/-- The register that an operand names. -/
def register? : Operand → Option Text
  | .register name => some name
  | _ => none

/-- The label that an operand names. -/
def label? : Operand → Option Text
  | .label name => some name
  | _ => none

end Operand

/-- Whether an operation is a conditional jump. -/
def Opcode.isBranch : Opcode → Bool
  | .branch _ => true
  | _ => false

namespace Machine

/-- The value of an integer or a register, if it has one. -/
def value? (m : Machine) : Operand → Option Int
  | .integer n => some n
  | .register name => m.registers.get? name
  | _ => none

/-- The first of some registers that is unset. -/
def firstUnset (m : Machine) (names : List Text) : Option Text :=
  names.find? fun name => (m.registers.get? name).isNone

/-- Whether an operand names a register that is unset. -/
def lacks (m : Machine) (operand : Operand) : Bool :=
  operand.register?.any fun name => (m.registers.get? name).isNone

/-- Whether the value of an operand is too long to be shown. -/
def isOverlong (m : Machine) (operand : Operand) : Bool :=
  (m.value? operand).any fun value => !Numeral.isShowable value

/-- The text of an operand: its content, or the numeral of its value. -/
def spell (m : Machine) : Operand → Text
  | .text content => content
  | operand => ((m.value? operand).map Numeral.write).getD []

/-- The operands before the first that names an unset register. -/
def speakable (m : Machine) (operands : List Operand) : List Operand :=
  operands.takeWhile fun operand => !m.lacks operand

/-- Whether all registers hold words. -/
def HoldsWords (m : Machine) : Prop :=
  ∀ name value, m.registers.get? name = some value → Word.InRange value

end Machine

namespace Instruction

/-- The registers that an instruction reads, in order; the destination of `MOV` is
not among them. -/
def reads (i : Instruction) : List Text :=
  match i.opcode with
  | .mov => i.operands.tail.filterMap Operand.register?
  | _ => i.operands.filterMap Operand.register?

/-- The label that a jump, a branch or a call names. -/
def target? (i : Instruction) : Option Text :=
  match i.opcode with
  | .jump | .branch _ | .call => i.operands.head?.bind Operand.label?
  | _ => none

/-- The value that an operand in a given place has. -/
def operandValue? (m : Machine) (i : Instruction) (place : Nat) : Option Int :=
  i.operands[place]?.bind m.value?

/-- What can go wrong with an instruction: each fault where its condition holds. -/
def hazards (p : Program) (m : Machine) (i : Instruction) : List (Option Fault) :=
  [ if i.opcode = .unknown then some (.unknownOpcode i.token) else none,
    if i.opcode = .invalid then i.defect.map (.malformed ·.reason) else none,
    (m.firstUnset i.reads).map .unsetRegister,
    if i.opcode = .arithmetic .div ∧ i.operandValue? m 1 = some 0 then
      (i.operandValue? m 0).map .divisionByZero
    else none,
    (i.target?.filter fun name => (p.labels.get? name).isNone).map .undefinedLabel,
    if i.opcode.isBranch ∧ m.comparison = none then
      some (.noComparison i.opcode.mnemonic)
    else none,
    if i.opcode = .ret ∧ m.callStack = [] then some .emptyCallStack else none ]

/-- The first hazard that applies. -/
def firstHazard (p : Program) (m : Machine) (i : Instruction) : Option Fault :=
  (i.hazards p m).findSome? id

/-- The operands whose values an instruction shows: a division by zero shows its dividend,
and `MSG` its operands up to the first unset register. -/
def shows (m : Machine) (i : Instruction) : List Operand :=
  match i.opcode with
  | .arithmetic .div => if i.operandValue? m 1 = some 0 then i.operands.take 1 else []
  | .msg => m.speakable i.operands
  | _ => []

/-- Whether an instruction has to show an integer that is too long. -/
def isOverlong (m : Machine) (i : Instruction) : Bool :=
  (i.shows m).any m.isOverlong

end Instruction

namespace Fault

/-- The faults of operands that are too few, too many or of the wrong kind. -/
def IsMismatch : Fault → Prop
  | .operandCount _ _ => True
  | .nameless _ => True
  | _ => False

/-- The faults that are no errors of a program, and that no run would take note of. -/
def IsForeign : Fault → Prop
  | .operandCount _ _ => True
  | .nameless _ => True
  | .unshowable _ => True
  | _ => False

theorem IsMismatch.isForeign {fault : Fault} (h : fault.IsMismatch) : fault.IsForeign := by
  cases fault <;> first | exact h | cases h

end Fault

theorem Operand.filterMap_register?_cons (o : Operand) (os : List Operand) :
    (o :: os).filterMap register? = o.register?.toList ++ os.filterMap register? := by
  cases h : o.register? <;> simp [h]

namespace Attempt

@[simp] theorem fault_counted (a : Attempt) : a.counted.fault = a.fault := by
  cases h : a.fault <;> simp [counted, h]

@[simp] theorem fault_ofResult_ok (m after : Machine) :
    (ofResult m (.ok after)).fault = none := by
  rfl

@[simp] theorem fault_ofResult_error (m : Machine) (fault : Fault) :
    (ofResult m (.error fault)).fault = some fault := by
  rfl

end Attempt

namespace Machine

@[simp] theorem value?_register (m : Machine) (name : Text) :
    m.value? (.register name) = m.registers.get? name := by
  rfl

theorem read_of_get?_none {m : Machine} {name : Text} (h : m.registers.get? name = none) :
    m.read name = .error (.unsetRegister name) := by
  simp [read, h]

theorem read_of_get?_some {m : Machine} {name : Text} {value : Int}
    (h : m.registers.get? name = some value) : m.read name = .ok value :=
  read_eq_ok.mpr h

theorem firstUnset_cons_of_none {m : Machine} {name : Text} (names : List Text)
    (h : m.registers.get? name = none) : m.firstUnset (name :: names) = some name := by
  simp [firstUnset, h]

theorem firstUnset_cons_of_some {m : Machine} {name : Text} {value : Int} (names : List Text)
    (h : m.registers.get? name = some value) :
    m.firstUnset (name :: names) = m.firstUnset names := by
  simp [firstUnset, h]

@[simp] theorem firstUnset_nil (m : Machine) : m.firstUnset [] = none := by
  rfl

@[simp] theorem firstUnset_append (m : Machine) (s : Text) (names : List Text) :
    (m.append s).firstUnset names = m.firstUnset names := by
  rfl

@[simp] theorem speakable_append (m : Machine) (s : Text) (operands : List Operand) :
    (m.append s).speakable operands = m.speakable operands := by
  rfl

@[simp] theorem isOverlong_append (m : Machine) (s : Text) :
    (m.append s).isOverlong = m.isOverlong := by
  funext operand
  cases operand <;> rfl

/-- The registers that operands name are unset from the first that lacks its value. -/
theorem firstUnset_filterMap_cons (m : Machine) (o : Operand) (os : List Operand) :
    m.firstUnset ((o :: os).filterMap Operand.register?) =
      if m.lacks o then o.register? else m.firstUnset (os.filterMap Operand.register?) := by
  cases o with
  | register name =>
      cases hname : m.registers.get? name <;>
        simp [firstUnset, lacks, Operand.register?, hname]
  | _ => rfl

theorem firstUnset_of_value? {m : Machine} {operand : Operand} {value : Int}
    (h : m.value? operand = some value) : m.firstUnset operand.register?.toList = none := by
  cases operand with
  | register name =>
      exact firstUnset_cons_of_some [] h
  | _ => rfl

/-- An operand with a value is rendered as its numeral, unless it is too long. -/
theorem render_of_value? {m : Machine} {operand : Operand} {value : Int}
    (h : m.value? operand = some value) :
    m.render operand = (Numeral.shown value).mapError .unshowable := by
  cases operand with
  | integer n =>
      cases h
      rfl
  | register name =>
      rw [render, eval, read_of_get?_some h]
      · rfl
      · exact fun _ => Operand.noConfusion
  | text _ | label _ =>
      cases h

/-- **An operand is rendered** as it is spelled, or it names an unset register, or its value
is too long to be shown. -/
theorem render_cases (m : Machine) {operand : Operand} (h : ∀ name, operand ≠ .label name) :
    (m.lacks operand = false ∧ m.isOverlong operand = false ∧
      m.render operand = .ok (m.spell operand)) ∨
    (∃ name, operand = .register name ∧ m.lacks operand = true ∧
      m.render operand = .error (.unsetRegister name)) ∨
    (m.lacks operand = false ∧ m.isOverlong operand = true ∧
      m.render operand = .error (.unshowable {})) := by
  have hvalued : ∀ value, m.value? operand = some value →
      (m.isOverlong operand = false ∧ m.render operand = .ok (Numeral.write value)) ∨
      (m.isOverlong operand = true ∧ m.render operand = .error (.unshowable {})) := by
    intro value hvalue
    rw [render_of_value? hvalue, isOverlong, hvalue]
    cases hshort : Numeral.isShowable value with
    | true =>
        rw [Numeral.shown_of_isShowable hshort]
        exact .inl ⟨by simp [hshort], rfl⟩
    | false =>
        rw [Numeral.shown_of_not_isShowable hshort]
        exact .inr ⟨by simp [hshort], rfl⟩
  cases operand with
  | text content =>
      exact .inl ⟨rfl, rfl, rfl⟩
  | label name =>
      exact absurd rfl (h name)
  | integer n =>
      rcases hvalued n rfl with ⟨hshort, hrender⟩ | ⟨hlong, hrender⟩
      · exact .inl ⟨rfl, hshort, hrender⟩
      · exact .inr (.inr ⟨rfl, hlong, hrender⟩)
  | register name =>
      cases hname : m.registers.get? name with
      | none =>
          refine .inr (.inl ⟨name, rfl, by simp [lacks, Operand.register?, hname], ?_⟩)
          rw [render, eval, read_of_get?_none hname]
          · rfl
          · exact fun _ => Operand.noConfusion
      | some value =>
          have hset : m.lacks (.register name) = false := by
            simp [lacks, Operand.register?, hname]
          rcases hvalued value hname with ⟨hshort, hrender⟩ | ⟨hlong, hrender⟩
          · exact .inl ⟨hset, hshort, by simpa [spell, hname] using hrender⟩
          · exact .inr (.inr ⟨hset, hlong, hrender⟩)

/-- An operand that is read either is an unset register or has a value. -/
theorem eval_cases (m : Machine) {source : Operand} (h : Slot.value.Takes source) :
    (∃ name, m.firstUnset source.register?.toList = some name ∧
      m.eval source = .error (.unsetRegister name)) ∨
    (∃ value, m.firstUnset source.register?.toList = none ∧
      m.value? source = some value ∧ m.eval source = .ok value) := by
  cases h with
  | readInteger n =>
      exact .inr ⟨n, rfl, rfl, rfl⟩
  | readRegister name =>
      cases hname : m.registers.get? name with
      | none =>
          exact .inl ⟨name, firstUnset_cons_of_none [] hname, read_of_get?_none hname⟩
      | some value =>
          exact .inr ⟨value, firstUnset_cons_of_some [] hname, hname, read_of_get?_some hname⟩

theorem value?_of_eval {m : Machine} {source : Operand} {value : Int}
    (h : Slot.value.Takes source) (heval : m.eval source = .ok value) :
    m.value? source = some value := by
  rcases m.eval_cases h with ⟨name, -, hunset⟩ | ⟨found, -, hfound, hset⟩
  · rw [hunset] at heval
    cases heval
  · rw [hset] at heval
    cases heval
    exact hfound

end Machine

namespace Action

variable (p : Program) (m : Machine)

theorem fault_assign (name : Text) {source : Operand} (h : Slot.value.Takes source) :
    ((assign (.register name) source).perform p m).fault =
      (m.firstUnset source.register?.toList).map .unsetRegister := by
  rcases m.eval_cases h with ⟨unset, hunset, heval⟩ | ⟨value, hunset, -, heval⟩
  · simp [perform, Machine.assign, Operand.name, heval, hunset, bind, Except.bind]
  · simp [perform, Machine.assign, Operand.name, heval, hunset, bind, Except.bind,
      pure, Except.pure]

/-- Combining reads the destination before the source, and the quotient comes last. -/
theorem fault_combine (operation : Arithmetic) (name : Text) {source : Operand}
    (h : Slot.value.Takes source) :
    ((combine operation (.register name) source).perform p m).fault =
      ((m.firstUnset (name :: source.register?.toList)).map .unsetRegister).or
        (if operation = .div ∧ m.value? source = some 0 then
          (m.registers.get? name).map .ofDividend
        else none) := by
  cases hname : m.registers.get? name with
  | none =>
      simp [perform, Machine.combine, Operand.name, Machine.read_of_get?_none hname,
        Machine.firstUnset_cons_of_none _ hname, bind, Except.bind]
  | some lhs =>
      rw [Machine.firstUnset_cons_of_some _ hname]
      rcases m.eval_cases h with ⟨unset, hunset, heval⟩ | ⟨rhs, hunset, hvalue, heval⟩
      · simp [perform, Machine.combine, Operand.name, Machine.read_of_get?_some hname, heval,
          hunset, bind, Except.bind]
      · cases operation with
        | div =>
            by_cases hzero : rhs = 0 <;>
              simp [perform, Machine.combine, Operand.name, Machine.read_of_get?_some hname,
                heval, hunset, hvalue, hzero, Arithmetic.apply, Arithmetic.quotient, bind,
                Except.bind, pure, Except.pure]
        | _ =>
            simp [perform, Machine.combine, Operand.name, Machine.read_of_get?_some hname,
              heval, hunset, Arithmetic.apply, bind, Except.bind, pure, Except.pure]

/-- A quotient by zero is a fault of its dividend, which is shown if it can be. -/
theorem fault_divide (name : Text) {source : Operand} (h : Slot.value.Takes source) :
    ((combine .div (.register name) source).perform p m).fault =
      if m.value? source = some 0 ∧ m.isOverlong (.register name) then some (.unshowable {})
      else ((m.firstUnset (name :: source.register?.toList)).map .unsetRegister).or
        (if m.value? source = some 0 then (m.registers.get? name).map .divisionByZero
        else none) := by
  rw [fault_combine p m _ _ h]
  by_cases hzero : m.value? source = some 0
  · have hunset := Machine.firstUnset_of_value? hzero
    cases hname : m.registers.get? name with
    | none =>
        simp [Machine.isOverlong, hname]
    | some dividend =>
        rw [Machine.firstUnset_cons_of_some _ hname, hunset]
        cases hshort : Numeral.isShowable dividend with
        | true =>
            simp [Machine.isOverlong, hname, hzero, hshort, Fault.ofDividend_of_isShowable hshort]
        | false =>
            simp [Machine.isOverlong, hname, hzero, hshort,
              Fault.ofDividend_of_not_isShowable hshort]
  · simp [hzero]

theorem fault_compare {lhs rhs : Operand} (hlhs : Slot.value.Takes lhs)
    (hrhs : Slot.value.Takes rhs) :
    ((compare lhs rhs).perform p m).fault =
      (m.firstUnset (lhs.register?.toList ++ rhs.register?.toList)).map .unsetRegister := by
  have happend : m.firstUnset (lhs.register?.toList ++ rhs.register?.toList) =
      (m.firstUnset lhs.register?.toList).or (m.firstUnset rhs.register?.toList) := by
    simp [Machine.firstUnset]
  rw [happend]
  rcases m.eval_cases hlhs with ⟨unset, hunset, heval⟩ | ⟨a, hunset, -, heval⟩
  · simp [perform, Machine.compareOperands, heval, hunset, bind, Except.bind]
  · rcases m.eval_cases hrhs with ⟨unset', hunset', heval'⟩ | ⟨b, hunset', -, heval'⟩
    · simp [perform, Machine.compareOperands, heval, hunset, heval', hunset', bind, Except.bind]
    · simp [perform, Machine.compareOperands, heval, hunset, heval', hunset', bind, Except.bind,
        pure, Except.pure]

/-- The fault of a label that is not defined. -/
theorem locate_label (name : Text) :
    p.locate (.label name) =
      match p.labels.get? name with
      | some index => .ok index
      | none => .error (.undefinedLabel name) := by
  rfl

theorem fault_jump (name : Text) :
    ((jump (.label name)).perform p m).fault =
      if (p.labels.get? name).isNone then some (.undefinedLabel name) else none := by
  cases hname : p.labels.get? name <;> simp [perform, locate_label, hname, Except.map]

theorem fault_call (name : Text) :
    ((call (.label name)).perform p m).fault =
      if (p.labels.get? name).isNone then some (.undefinedLabel name) else none := by
  cases hname : p.labels.get? name <;>
    simp [perform, Machine.call, locate_label, hname, bind, Except.bind, pure, Except.pure]

/-- A branch looks up its label before the comparison. -/
theorem fault_branch (relation : Relation) (name : Text) :
    ((branch relation (.label name)).perform p m).fault =
      if (p.labels.get? name).isNone then some (.undefinedLabel name)
      else if m.comparison = none then some (.noComparison (Opcode.branch relation).mnemonic)
      else none := by
  cases hname : p.labels.get? name with
  | none =>
      simp [perform, Machine.branch, locate_label, hname, bind, Except.bind]
  | some index =>
      cases hcomparison : m.comparison <;>
        simp [perform, Machine.branch, locate_label, hname, Machine.compared, hcomparison,
          bind, Except.bind, pure, Except.pure]

theorem fault_ret :
    (ret.perform p m).fault = if m.callStack = [] then some .emptyCallStack else none := by
  cases hstack : m.callStack <;>
    simp [perform, Machine.ret, Machine.pop, hstack, bind, Except.bind, pure, Except.pure]

/-- Writing stops at the first operand that is unset or too long. -/
theorem fault_write {parts : List Operand} (h : ∀ name, .label name ∉ parts) :
    ((write parts).perform p m).fault =
      if (m.speakable parts).any m.isOverlong then some (.unshowable {})
      else (m.firstUnset (parts.filterMap Operand.register?)).map .unsetRegister := by
  simp only [perform]
  induction parts generalizing m with
  | nil =>
      rfl
  | cons operand parts ih =>
      have hoperand : ∀ name, operand ≠ .label name := fun name heq => h name (by simp [heq])
      have hrest := fun s => ih (m.append s) fun name hname => h name (List.mem_cons_of_mem _ hname)
      simp only [Machine.speakable_append, Machine.isOverlong_append,
        Machine.firstUnset_append] at hrest
      rw [Machine.firstUnset_filterMap_cons]
      rcases m.render_cases hoperand with ⟨hset, hshort, hrender⟩ | ⟨name, rfl, hunset, hrender⟩ |
        ⟨hset, hlong, hrender⟩
      · rw [Machine.write, hrender]
        simp [hrest, Machine.speakable, hset, hshort]
      · rw [Machine.write, hrender]
        simp [Machine.speakable, hunset, Operand.register?]
      · rw [Machine.write, hrender]
        simp [Machine.speakable, hset, hlong]

end Action

namespace Instruction

variable {i : Instruction}

theorem firstHazard_eq (p : Program) (m : Machine) (i : Instruction) :
    i.firstHazard p m = (i.hazards p m).foldr Option.or none := by
  have hfold : ∀ hs : List (Option Fault), hs.findSome? id = hs.foldr Option.or none := by
    intro hs
    induction hs with
    | nil =>
        rfl
    | cons hazard hs ih =>
        cases hazard <;> simp [ih]
  exact hfold _

/-- **A decoded instruction raises its first hazard**, and succeeds if it has none, unless it
has to show an integer that is too long. -/
theorem fault_execute (h : i.Decoded) (p : Program) (m : Machine) :
    (i.execute p m).fault =
      if i.isOverlong m then some (.unshowable {}) else i.firstHazard p m := by
  rw [execute, Attempt.fault_counted, firstHazard_eq, hazards, isOverlong, shows]
  have hform := h.form
  generalize i.action = action at hform ⊢
  cases hform with
  | mov hopcode hoperands hsource =>
      rw [Action.fault_assign p m _ hsource]
      simp [reads, target?, hopcode, hoperands, Opcode.isBranch,
        Operand.filterMap_register?_cons]
  | inc hopcode hoperands =>
      rw [Action.fault_combine p m _ _ (.readInteger 1)]
      simp [reads, target?, hopcode, hoperands, Opcode.isBranch, Operand.register?]
  | dec hopcode hoperands =>
      rw [Action.fault_combine p m _ _ (.readInteger 1)]
      simp [reads, target?, hopcode, hoperands, Opcode.isBranch, Operand.register?]
  | @arithmetic operation name source hopcode hoperands hsource =>
      cases operation with
      | div =>
          rw [Action.fault_divide p m _ hsource]
          by_cases hzero : m.value? source = some 0 <;>
            simp [reads, target?, hopcode, hoperands, Opcode.isBranch, operandValue?, hzero,
              Operand.filterMap_register?_cons, Operand.register?]
      | _ =>
          rw [Action.fault_combine p m _ _ hsource]
          simp [reads, target?, hopcode, hoperands, Opcode.isBranch,
            Operand.filterMap_register?_cons, Operand.register?]
  | compare hopcode hoperands hlhs hrhs =>
      rw [Action.fault_compare p m hlhs hrhs]
      simp [reads, target?, hopcode, hoperands, Opcode.isBranch,
        Operand.filterMap_register?_cons]
  | jump hopcode hoperands =>
      rw [Action.fault_jump]
      simp [reads, target?, hopcode, hoperands, Opcode.isBranch, Operand.register?,
        Operand.label?, Operand.filterMap_register?_cons, Option.filter]
  | @branch relation name hopcode hoperands =>
      rw [Action.fault_branch]
      by_cases hname : p.labels.get? name = none <;>
        simp [reads, target?, hopcode, hoperands, Opcode.isBranch, Operand.register?,
          Operand.label?, Operand.filterMap_register?_cons, Option.filter, hname]
  | call hopcode hoperands =>
      rw [Action.fault_call]
      simp [reads, target?, hopcode, hoperands, Opcode.isBranch, Operand.register?,
        Operand.label?, Operand.filterMap_register?_cons, Option.filter]
  | ret hopcode hoperands =>
      rw [Action.fault_ret]
      simp [reads, target?, hopcode, hoperands, Opcode.isBranch]
  | msg hopcode hunlabelled =>
      rw [Action.fault_write p m hunlabelled]
      simp [reads, target?, hopcode, Opcode.isBranch]
  | halt hopcode hoperands =>
      simp [reads, target?, hopcode, hoperands, Opcode.isBranch, Action.perform]
  | unknown hopcode =>
      simp [hopcode, Action.perform]
  | invalid hopcode hdefect =>
      simp [hopcode, hdefect, Action.perform]

/-- No hazard of an instruction comes from the number or the kinds of its operands, or from an
integer that has to be shown. -/
theorem not_isForeign_of_firstHazard {p : Program} {m : Machine} {fault : Fault}
    (h : i.firstHazard p m = some fault) : ¬ fault.IsForeign := by
  obtain ⟨hazard, hmem, rfl⟩ := List.exists_of_findSome?_eq_some h
  simp only [hazards, List.mem_cons, List.not_mem_nil, or_false] at hmem
  rcases hmem with h | h | h | h | h | h | h
  · split at h <;> cases h
    exact id
  · split at h
    · obtain ⟨defect, -, rfl⟩ := Option.map_eq_some_iff.mp h.symm
      exact id
    · cases h
  · obtain ⟨name, -, rfl⟩ := Option.map_eq_some_iff.mp h.symm
    exact id
  · split at h
    · obtain ⟨dividend, -, rfl⟩ := Option.map_eq_some_iff.mp h.symm
      exact id
    · cases h
  · obtain ⟨name, -, rfl⟩ := Option.map_eq_some_iff.mp h.symm
    exact id
  · split at h <;> cases h
    exact id
  · split at h <;> cases h
    exact id

/-- A literal is a word, and so is the value of a register that holds one. -/
theorem Decoded.isOverlong_of_words (h : i.Decoded) {m : Machine} (hm : m.HoldsWords) :
    ∀ o ∈ i.operands, m.isOverlong o = false := by
  intro o ho
  cases o with
  | integer n =>
      simp [Machine.isOverlong, Machine.value?, (h.words n ho).isShowable]
  | register name =>
      cases hname : m.registers.get? name with
      | none =>
          simp [Machine.isOverlong, hname]
      | some value =>
          simp [Machine.isOverlong, hname, (hm name value hname).isShowable]
  | text _ | label _ =>
      rfl

theorem mem_of_mem_shows {m : Machine} {o : Operand} (h : o ∈ i.shows m) : o ∈ i.operands := by
  unfold shows at h
  split at h
  · split at h
    · exact List.mem_of_mem_take h
    · cases h
  · exact (List.takeWhile_sublist _).mem h
  · cases h

/-- **Nothing is too long to be shown** where registers hold words. -/
theorem Decoded.not_isOverlong_of_words (h : i.Decoded) {m : Machine} (hm : m.HoldsWords) :
    i.isOverlong m = false := by
  rw [isOverlong, List.any_eq_false]
  intro o ho
  simp [h.isOverlong_of_words hm o (mem_of_mem_shows ho)]

/-- **Type safety of decoding.**  The operands of an instruction that was read from a
text match its operation, so that its handler never stumbles over them.  Executing it on any
machine raises its first hazard or succeeds, unless it has to show an integer that is too
long, and there is none where the registers hold words. -/
theorem ofText_typeSafe {text : Text} (h : ofText text = .ok i) :
    (i.opcode = .invalid ↔ i.defect ≠ none) ∧
    (∀ slots, i.opcode.slots? = some slots → List.Forall₂ Slot.Takes slots i.operands) ∧
    (i.opcode = .msg ∨ i.opcode = .unknown ∨ i.opcode = .invalid →
      ∀ name, .label name ∉ i.operands) ∧
    (∀ n, .integer n ∈ i.operands → Word.InRange n) ∧
    ∀ (p : Program) (m : Machine),
      InstructionSet.standard.execute p i m = some (i.execute p m) ∧
      (∀ fault, (i.execute p m).fault = some fault → ¬ fault.IsMismatch) ∧
      (i.isOverlong m = true → (i.execute p m).fault = some (.unshowable {})) ∧
      (i.isOverlong m = false → (i.execute p m).fault = i.firstHazard p m) ∧
      (m.HoldsWords → i.isOverlong m = false) := by
  have hdecoded := decoded_ofText h
  refine ⟨hdecoded.invalid_iff, hdecoded.takes, hdecoded.unlabelled, hdecoded.words, ?_⟩
  intro p m
  have hfault := fault_execute hdecoded p m
  refine ⟨InstructionSet.execute_standard p i m, ?_, ?_, ?_, ?_⟩
  · intro fault hraised
    rw [hfault] at hraised
    split at hraised
    · cases hraised
      exact id
    · exact fun hmismatch => not_isForeign_of_firstHazard hraised hmismatch.isForeign
  · intro hlong
    rw [hfault, if_pos hlong]
  · intro hshort
    rw [hfault, hshort, if_neg Bool.false_ne_true]
  · exact hdecoded.not_isOverlong_of_words

/-- Dividing by a register that holds zero is reported after the registers are read. -/
theorem ofText_typeSafe_division :
    ∃ i, ofText ['d', 'i', 'v', ' ', 'a', ',', 'b'] = .ok i ∧
      (i.execute {} { registers := [(['a'], 7), (['b'], 0)] }).fault =
        some (.divisionByZero 7) := by
  have hread : ofText ['d', 'i', 'v', ' ', 'a', ',', 'b'] =
      .ok { opcode := .arithmetic .div
            operands := [.register ['a'], .register ['b']]
            token := ['d', 'i', 'v']
            text := ['d', 'i', 'v', ' ', 'a', ',', 'b'] } := by
    decide
  refine ⟨_, hread, ?_⟩
  obtain ⟨-, -, -, hhazard, -⟩ := (ofText_typeSafe hread).2.2.2.2 {}
    { registers := [(['a'], 7), (['b'], 0)] }
  rw [hhazard (by decide)]
  decide

/-- A register with one digit too many makes a `MSG` fail that has nothing else to fear. -/
theorem exists_fault_without_hazard :
    ∃ i m, ofText "msg a".toList = .ok i ∧ m.registers.get? ['a'] = some (Numeral.overlong : Int) ∧
      i.firstHazard {} m = none ∧ (i.execute {} m).fault = some (.unshowable {}) := by
  have hread : ofText "msg a".toList =
      .ok { opcode := .msg, operands := [.register ['a']], token := "msg".toList,
            text := "msg a".toList } := by
    decide +kernel
  obtain ⟨value, hvalue⟩ : ∃ value : Int, value = Numeral.overlong := ⟨_, rfl⟩
  have hlong : Numeral.isShowable value = false := by
    rw [hvalue]
    exact Numeral.not_isShowable_overlong
  rw [← hvalue]
  refine ⟨_, { registers := [(['a'], value)] }, hread, rfl, rfl, ?_⟩
  rw [fault_execute (decoded_ofText hread)]
  simp [isOverlong, shows, Machine.speakable, Machine.lacks, Machine.isOverlong,
    Operand.register?, Table.get?_cons, hlong]

end Instruction
end RegisterMachine
