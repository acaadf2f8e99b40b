import RegisterMachine.Proofs.Calls
import RegisterMachine.Proofs.Correspondence
import RegisterMachine.Proofs.Output

/-!
# The frame of an instruction

What one instruction can change.  An instruction that fails changes nothing, except that
`MSG` keeps what it wrote before the first operand that is unset, or too long to be shown.
An instruction that succeeds is counted, moves the program counter, and changes the one part
of the machine that its operation is about.

**Contents.**
* `Instruction.destination?`: the register that an instruction writes.
* `Instruction.Continues`: where a program goes on behind an instruction.
* `Instruction.Frame`: a machine before and after an instruction that succeeds.

**Results.**
* `Instruction.Decoded.continues`: where a decoded instruction leads.
* `Instruction.Decoded.frame`: a decoded instruction keeps its frame.
* `Instruction.execute_frame`: what a decoded instruction changes, whether it fails or not.
-/

namespace RegisterMachine

/-- Whether an operation decides by itself where the program goes on. -/
def Opcode.isControl : Opcode → Bool
  | .jump | .branch _ | .call | .ret | .halt => true
  | _ => false

namespace Instruction

variable {i : Instruction} {p : Program} {m after : Machine}

/-- The register that an instruction writes. -/
def destination? (i : Instruction) : Option Text :=
  match i.opcode with
  | .mov | .inc | .dec | .arithmetic _ => i.operands.head?.bind Operand.register?
  | _ => none

/-- The line that an instruction names as its target. -/
def targetLine? (p : Program) (i : Instruction) : Option Nat :=
  i.target?.bind p.labels.get?

/-- Where a program goes on behind an instruction that succeeds. -/
inductive Continues (p : Program) (m : Machine) (i : Instruction) : Int → Prop
  | next (hopcode : i.opcode.isControl = false) : Continues p m i (m.pc + 1)
  | jump {index : Nat} (hopcode : i.opcode = .jump ∨ i.opcode = .call)
      (hindex : i.targetLine? p = some index) : Continues p m i index
  | taken {relation : Relation} {index : Nat} {a b : Int} (hopcode : i.opcode = .branch relation)
      (hindex : i.targetLine? p = some index) (hcomparison : m.comparison = some (a, b))
      (hholds : relation.holds a b = true) : Continues p m i index
  | passed {relation : Relation} {a b : Int} (hopcode : i.opcode = .branch relation)
      (hcomparison : m.comparison = some (a, b)) (hholds : relation.holds a b = false) :
      Continues p m i (m.pc + 1)
  | ret {index : Int} {rest : List Int} (hopcode : i.opcode = .ret)
      (hstack : m.callStack = index :: rest) : Continues p m i (index + 1)
  | halt (hopcode : i.opcode = .halt) : Continues p m i m.pc

/-- A machine before and after an instruction that succeeds. -/
structure Frame (p : Program) (i : Instruction) (m after : Machine) : Prop where
  cycles : after.cycles = m.cycles + 1
  /-- No register is written but the destination. -/
  others : ∀ name, i.destination? ≠ some name →
    after.registers.get? name = m.registers.get? name
  untouched : i.destination? = none → after.registers = m.registers
  /-- Registers stay in the order of their first writing. -/
  order : m.registers.names <+: after.registers.names
  comparison : i.opcode ≠ .compare → after.comparison = m.comparison
  called : i.opcode = .call → after.callStack = m.pc :: m.callStack
  returned : i.opcode = .ret → ∃ index, m.callStack = index :: after.callStack
  callStack : i.opcode ≠ .call → i.opcode ≠ .ret → after.callStack = m.callStack
  said : i.opcode = .msg → after.output = m.output ++ i.operands.flatMap m.spell
  output : i.opcode ≠ .msg → after.output = m.output
  ended : i.opcode = .halt → after.result = some m.output ∧ after.halted = true
  result : i.opcode ≠ .halt → after.result = m.result ∧ after.halted = m.halted
  continues : i.Continues p m after.pc

namespace Decoded

/-- A decoded instruction writes its destination, if it has one, and no other register. -/
theorem registers_of_performs (hi : i.Decoded) (h : i.action.Performs p m after) :
    (i.destination? = none ∧ after.registers = m.registers) ∨
    ∃ name value, i.destination? = some name ∧
      after.registers = m.registers.put name value := by
  have hform := hi.form
  generalize i.action = a at h hform
  cases hform with
  | mov hopcode hoperands _ =>
      cases h with
      | assign hname _ =>
          cases hname
          exact .inr ⟨_, _, by simp [destination?, hopcode, hoperands, Operand.register?], rfl⟩
  | inc hopcode hoperands | dec hopcode hoperands | arithmetic hopcode hoperands _ =>
      cases h with
      | combine hname _ _ _ =>
          cases hname
          exact .inr ⟨_, _, by simp [destination?, hopcode, hoperands, Operand.register?], rfl⟩
  | _ hopcode =>
      left
      refine ⟨by simp [destination?, hopcode], ?_⟩
      cases h <;> rfl

/-- Only a comparison is remembered. -/
theorem comparison_of_performs (hi : i.Decoded) (h : i.action.Performs p m after)
    (hne : i.opcode ≠ .compare) : after.comparison = m.comparison := by
  have hform := hi.form
  generalize i.action = a at h hform
  cases h with
  | compare _ _ =>
      cases hform with
      | compare hopcode _ _ _ => exact absurd hopcode hne
  | _ => rfl

/-- What an instruction goes to is the line of the label that it names. -/
theorem targetLine?_eq (hi : i.Decoded) {target : Operand} {index : Nat}
    (htarget : i.action.target? = some target) (hindex : p.locate target = .ok index) :
    i.targetLine? p = some index := by
  obtain ⟨name, rfl, hname⟩ := hi.target?_eq htarget
  rw [Action.locate_label] at hindex
  rw [targetLine?, hname, Option.bind_some]
  cases hlabel : p.labels.get? name with
  | none =>
      rw [hlabel] at hindex
      cases hindex
  | some found =>
      rw [hlabel] at hindex
      cases hindex
      rfl

/-- **Where a decoded instruction leads.** -/
theorem continues (hi : i.Decoded) (h : i.action.Performs p m after) :
    i.Continues p m after.pc := by
  have hform := hi.form
  have hline := fun target index => @targetLine?_eq i p hi target index
  generalize i.action = a at h hform hline
  cases hform with
  | jump hopcode _ =>
      cases h with
      | jump hindex => exact .jump (.inl hopcode) (hline _ _ rfl hindex)
  | branch hopcode _ =>
      cases h with
      | taken hindex hcomparison hholds =>
          exact .taken hopcode (hline _ _ rfl hindex) hcomparison hholds
      | passed hindex hcomparison hholds =>
          exact .passed hopcode hcomparison hholds
  | call hopcode _ =>
      cases h with
      | call hindex => exact .jump (.inr hopcode) (hline _ _ rfl hindex)
  | ret hopcode _ =>
      cases h with
      | ret hstack => exact .ret hopcode hstack
  | halt hopcode _ =>
      cases h with
      | halt => exact .halt hopcode
  | _ hopcode =>
      -- every other operation goes on at the next line
      have hnext : i.Continues p m (m.pc + 1) := .next (by rw [hopcode]; rfl)
      cases h <;> exact hnext

/-- Only a call and a return change the call stack. -/
theorem callStack_of_performs (hi : i.Decoded) (h : i.action.Performs p m after)
    (hcall : i.opcode ≠ .call) (hret : i.opcode ≠ .ret) : after.callStack = m.callStack := by
  rcases h.callStack_cases with hsame | ⟨target, haction, -⟩ | ⟨haction, -⟩
  · exact hsame
  · exact absurd (hi.opcode_of_call haction) hcall
  · exact absurd (opcode_eq_ret haction) hret

/-- **A decoded instruction keeps its frame.** -/
theorem frame (hi : i.Decoded) (h : i.action.Performs p m after) : i.Frame p m after.tick := by
  have hregisters := hi.registers_of_performs h
  have houtput := (hi.output_of_performs h).1
  have hcomparison := hi.comparison_of_performs h
  have hcallStack := hi.callStack_of_performs h
  have hcontinues := hi.continues h
  have haction : ∀ a, i.action = a → a.Performs p m after := fun _ heq => heq ▸ h
  constructor
  case cycles => exact congrArg (· + 1) h.cycles_eq
  case others =>
    intro other hother
    rcases hregisters with ⟨-, hsame⟩ | ⟨name, value, hname, hput⟩
    · exact congrArg (Table.get? · other) hsame
    · have hne : name ≠ other := fun heq => hother (heq ▸ hname)
      exact (congrArg (Table.get? · other) hput).trans
        ((Table.get?_put _ _ _ _).trans (if_neg hne))
  case untouched =>
    intro hnone
    rcases hregisters with ⟨-, hsame⟩ | ⟨name, value, hname, -⟩
    · exact hsame
    · rw [hnone] at hname
      cases hname
  case order =>
    show m.registers.names <+: after.registers.names
    rcases hregisters with ⟨-, hsame⟩ | ⟨name, value, -, hput⟩
    · simp [hsame]
    · rw [hput, Table.names_put]
      split
      · exact List.prefix_rfl
      · exact List.prefix_append _ _
  case comparison => exact hcomparison
  case called =>
    intro hopcode
    have hpushed := callStack_of_call hopcode h
    exact hpushed
  case returned =>
    intro hopcode
    cases haction .ret (by rw [action, hopcode]) with
    | ret hstack => exact ⟨_, hstack⟩
  case callStack => exact hcallStack
  case said =>
    intro hopcode
    rw [Execution.message, if_pos hopcode] at houtput
    exact houtput
  case output =>
    intro hopcode
    rw [Execution.message, if_neg hopcode, List.append_nil] at houtput
    exact houtput
  case ended =>
    intro hopcode
    cases haction .halt (by rw [action, hopcode]) with
    | halt => exact ⟨rfl, rfl⟩
  case result =>
    intro hopcode
    rcases h.result with ⟨hhalt, -⟩ | hsame
    · exact absurd (hi.opcode_of_halt hhalt) hopcode
    · exact hsame
  case continues => exact hcontinues

end Decoded

/-- A `MSG` that fails with nothing too long has an unset register. -/
theorem Decoded.exists_lacks_of_fault (hi : i.Decoded) (hopcode : i.opcode = .msg)
    (hshort : i.isOverlong m = false) {fault : Fault}
    (h : (i.execute p m).fault = some fault) : ∃ o ∈ i.operands, m.lacks o = true := by
  obtain ⟨⟨o, ho, hmute⟩, -⟩ := hi.machine_of_fault_msg hopcode h
  by_contra hnever
  push Not at hnever
  have hall : m.speakable i.operands = i.operands := by
    rw [Machine.speakable, List.takeWhile_eq_self_iff]
    intro other hother
    simp [hnever other hother]
  simp only [isOverlong, shows, hopcode, hall, List.any_eq_false] at hshort
  rcases hmute with hlacks | hlong
  · exact hnever o ho hlacks
  · exact hshort o ho hlong

/-- **The frame and the atomicity of an instruction.**  An instruction that fails leaves the
machine as it was; only `MSG` adds what it renders before its first operand that is unset or
too long to be shown, which is the first unset one if nothing is too long.  One that succeeds
keeps its frame. -/
theorem execute_frame {text : Text} (h : ofText text = .ok i) (p : Program) (m : Machine) :
    (∀ fault, (i.execute p m).fault = some fault →
      (i.opcode ≠ .msg → (i.execute p m).machine = m) ∧
      (i.opcode = .msg →
        (∃ o ∈ i.operands, m.lacks o = true ∨ m.isOverlong o = true) ∧
        (i.execute p m).machine = m.append ((m.renderable i.operands).flatMap m.spell) ∧
        (i.isOverlong m = false →
          (∃ o ∈ i.operands, m.lacks o = true) ∧
          (i.execute p m).machine = m.append ((m.speakable i.operands).flatMap m.spell)))) ∧
    ((i.execute p m).fault = none → i.Frame p m (i.execute p m).machine) := by
  have hi := decoded_ofText h
  constructor
  · intro fault hfault
    refine ⟨fun hopcode => hi.machine_of_fault_of_ne hopcode hfault, ?_⟩
    intro hopcode
    obtain ⟨hmute, hmachine⟩ := hi.machine_of_fault_msg hopcode hfault
    refine ⟨hmute, hmachine, fun hshort => ?_⟩
    refine ⟨hi.exists_lacks_of_fault hopcode hshort hfault, ?_⟩
    simp only [isOverlong, shows, hopcode] at hshort
    rw [hmachine, Machine.renderable_eq_speakable hshort]
  · intro hnone
    rcases i.execute_cases p m with ⟨after, hperforms, heq⟩ | hfails
    · rw [heq]
      exact hi.frame hperforms
    · exact absurd hnone hfails.fault_ne_none

/-- On one machine, a `MSG` that stops at its third operand, and an addition. -/
theorem execute_frame_halfway :
    ∃ said added m, ofText "msg 'x',a,b".toList = .ok said ∧ ofText "add a,2".toList = .ok added ∧
      m.callStack = [3] ∧ (said.execute {} m).fault = some (.unsetRegister ['b']) ∧
      (said.execute {} m).machine = m.append ['x', '1'] ∧
      added.Frame {} m (added.execute {} m).machine ∧
      (added.execute {} m).machine.registers = [(['a'], 3), (['c'], 5)] := by
  obtain ⟨said, hsaid⟩ : ∃ said, said =
      ({ opcode := .msg, operands := [.text ['x'], .register ['a'], .register ['b']],
         token := "msg".toList, text := "msg 'x',a,b".toList } : Instruction) := ⟨_, rfl⟩
  obtain ⟨added, hadded⟩ : ∃ added, added =
      ({ opcode := .arithmetic .add, operands := [.register ['a'], .integer 2],
         token := "add".toList, text := "add a,2".toList } : Instruction) := ⟨_, rfl⟩
  obtain ⟨m, hm⟩ : ∃ m, m =
      ({ registers := [(['a'], 1), (['c'], 5)], pc := 7, callStack := [3],
         comparison := some (1, 2) } : Machine) := ⟨_, rfl⟩
  have hread : ofText "msg 'x',a,b".toList = .ok said := by
    subst hsaid
    decide +kernel
  have hread' : ofText "add a,2".toList = .ok added := by
    subst hadded
    decide +kernel
  have hfault : (said.execute {} m).fault = some (.unsetRegister ['b']) := by
    subst hsaid hm
    rfl
  have hnone : (added.execute {} m).fault = none := by
    subst hadded hm
    rfl
  obtain ⟨-, hmachine, -⟩ := ((execute_frame hread {} m).1 _ hfault).2 (by subst hsaid; rfl)
  refine ⟨said, added, m, hread, hread', by subst hm; rfl, hfault, ?_,
    (execute_frame hread' {} m).2 hnone, by subst hadded hm; rfl⟩
  rw [hmachine]
  subst hsaid hm
  rfl

/-- A `MSG` that stops at its second operand, although no register is unset. -/
theorem exists_message_cut_short :
    ∃ i m, ofText "msg 'x',a".toList = .ok i ∧
      m.registers = [(['a'], (Numeral.overlong : Int))] ∧ m.output = [] ∧
      (∀ o ∈ i.operands, m.lacks o = false) ∧
      (i.execute {} m).fault = some (.unshowable {}) ∧ (i.execute {} m).machine.output = ['x'] := by
  obtain ⟨i, hi⟩ : ∃ i, i =
      ({ opcode := .msg, operands := [.text ['x'], .register ['a']], token := "msg".toList,
         text := "msg 'x',a".toList } : Instruction) := ⟨_, rfl⟩
  have hread : ofText "msg 'x',a".toList = .ok i := by
    subst hi
    decide +kernel
  obtain ⟨m, hm⟩ : ∃ m, m =
      ({ registers := [(['a'], Numeral.overlong)] } : Machine) := ⟨_, rfl⟩
  have hset : m.lacks (.register ['a']) = false := by
    subst hm
    rfl
  have hoverlong : m.isOverlong (.register ['a']) = true := by
    subst hm
    simp [Machine.isOverlong, Table.get?_cons, Numeral.not_isShowable_overlong]
  have htext : m.lacks (.text ['x']) = false ∧ m.isOverlong (.text ['x']) = false := ⟨rfl, rfl⟩
  have hoperands : i.operands = [.text ['x'], .register ['a']] := by
    subst hi
    rfl
  have hopcode : i.opcode = .msg := by
    subst hi
    rfl
  have hfault : (i.execute {} m).fault = some (.unshowable {}) := by
    rw [fault_execute (decoded_ofText hread)]
    simp [isOverlong, shows, hopcode, hoperands, Machine.speakable, hset, htext, hoverlong]
  obtain ⟨-, hmachine⟩ := (decoded_ofText hread).machine_of_fault_msg hopcode hfault
  have hspoken : m.renderable i.operands = [.text ['x']] := by
    simp [Machine.renderable, hoperands, hset, htext, hoverlong]
  have hempty : m.output = [] := by
    rw [hm]
    rfl
  refine ⟨i, m, hread, by rw [hm], hempty, by simp [hoperands, hset, htext], hfault, ?_⟩
  rw [hmachine, Machine.output_append, hspoken, hempty]
  rfl

end Instruction
end RegisterMachine
