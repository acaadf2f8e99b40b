import RegisterMachine.Proofs.Result
import RegisterMachine.Action

/-!
# What an instruction does

Everything that is proved about the effect of an instruction follows from one
case analysis: an action either succeeds in one of ten ways, or it fails and
leaves the machine as it was, except for the text that `MSG` has written by then.

**Contents.**
* `Machine.rendered`: the text of operands up to the first that has none.
* `Action.Performs`: how an action succeeds, and the machine it leaves.

**Results.**
* `Machine.write_eq`: writing adds the rendered text.
* `Action.perform_cases`, `Instruction.execute_cases`: the case analysis.
-/

namespace RegisterMachine
namespace Machine

/-- The text of operands up to the first that cannot be rendered, and its fault. -/
def rendered (m : Machine) : List Operand → Text × Option Fault
  | [] => ([], none)
  | operand :: operands =>
      match m.render operand with
      | .ok text => (text ++ (m.rendered operands).1, (m.rendered operands).2)
      | .error fault => ([], some fault)

theorem append_nil (m : Machine) : m.append [] = m := by
  rfl

theorem append_append (m : Machine) (s t : Text) :
    (m.append s).append t = m.append (s ++ t) := by
  simp [append, Transcript.append, List.reverseAux_eq]

@[simp] theorem render_append (m : Machine) (s : Text) (operand : Operand) :
    (m.append s).render operand = m.render operand := by
  cases operand <;> rfl

@[simp] theorem rendered_append (m : Machine) (s : Text) (operands : List Operand) :
    (m.append s).rendered operands = m.rendered operands := by
  induction operands with
  | nil =>
      rfl
  | cons operand operands ih =>
      simp only [rendered, render_append, ih]

/-- Writing adds the rendered text, and goes on only if all of it was rendered. -/
theorem write_eq (m : Machine) (operands : List Operand) :
    m.write operands =
      match (m.rendered operands).2 with
      | none => { machine := (m.append (m.rendered operands).1).advance }
      | some fault => { machine := m.append (m.rendered operands).1, fault := some fault } := by
  induction operands generalizing m with
  | nil =>
      rfl
  | cons operand operands ih =>
      cases hrender : m.render operand with
      | error fault =>
          simp [write, rendered, hrender, append_nil]
      | ok text =>
          simp only [write, rendered, hrender, ih, rendered_append, append_append]

end Machine

namespace Action

variable {p : Program} {m : Machine}

/-- How an action succeeds on a machine, and the machine that it leaves. -/
inductive Performs (p : Program) (m : Machine) : Action → Machine → Prop
  | assign {destination source : Operand} {name : Text} {value : Int}
      (hname : destination.name = .ok name) (hvalue : m.eval source = .ok value) :
      Performs p m (.assign destination source) (m.set name value).advance
  | combine {operation : Arithmetic} {destination source : Operand} {name : Text}
      {lhs rhs value : Int} (hname : destination.name = .ok name)
      (hlhs : m.read name = .ok lhs) (hrhs : m.eval source = .ok rhs)
      (hvalue : operation.apply lhs rhs = .ok value) :
      Performs p m (.combine operation destination source) (m.set name value).advance
  | compare {lhs rhs : Operand} {a b : Int}
      (ha : m.eval lhs = .ok a) (hb : m.eval rhs = .ok b) :
      Performs p m (.compare lhs rhs) (m.compare a b).advance
  | jump {target : Operand} {index : Nat} (hindex : p.locate target = .ok index) :
      Performs p m (.jump target) (m.jump index)
  | taken {relation : Relation} {target : Operand} {index : Nat} {a b : Int}
      (hindex : p.locate target = .ok index) (hcomparison : m.comparison = some (a, b))
      (hholds : relation.holds a b = true) :
      Performs p m (.branch relation target) (m.jump index)
  | passed {relation : Relation} {target : Operand} {index : Nat} {a b : Int}
      (hindex : p.locate target = .ok index) (hcomparison : m.comparison = some (a, b))
      (hholds : relation.holds a b = false) :
      Performs p m (.branch relation target) m.advance
  | call {target : Operand} {index : Nat} (hindex : p.locate target = .ok index) :
      Performs p m (.call target) ((m.push m.pc).jump index)
  | ret {index : Int} {rest : List Int} (hstack : m.callStack = index :: rest) :
      Performs p m .ret ({ m with callStack := rest }.jump (index + 1))
  | write {parts : List Operand} (hrendered : (m.rendered parts).2 = none) :
      Performs p m (.write parts) (m.append (m.rendered parts).1).advance
  | halt : Performs p m .halt m.finish

/-- How an action fails on a machine, and the machine that it leaves. -/
inductive Fails (m : Machine) : Action → Attempt → Prop
  | untouched (a : Action) (fault : Fault) : Fails m a { machine := m, fault := some fault }
  | written (parts : List Operand) {fault : Fault}
      (hrendered : (m.rendered parts).2 = some fault) :
      Fails m (.write parts) { machine := m.append (m.rendered parts).1, fault := some fault }

theorem Fails.fault_ne_none {a : Action} {attempt : Attempt} (h : a.Fails m attempt) :
    attempt.fault ≠ none := by
  cases h <;> simp

/-- Performing an action does not count it yet. -/
theorem Performs.cycles_eq {a : Action} {after : Machine} (h : a.Performs p m after) :
    after.cycles = m.cycles := by
  cases h <;> rfl

theorem Fails.cycles_eq {a : Action} {attempt : Attempt} (h : a.Fails m attempt) :
    attempt.machine.cycles = m.cycles := by
  cases h <;> rfl

theorem Fails.counted_eq {a : Action} {attempt : Attempt} (h : a.Fails m attempt) :
    attempt.counted = attempt := by
  cases h <;> rfl

/-- An action that changes the machine only on success performs, or leaves it. -/
theorem ofResult_cases {a : Action} {result : Except Fault Machine}
    (h : ∀ after, result = .ok after → a.Performs p m after) :
    (∃ after, a.Performs p m after ∧ Attempt.ofResult m result = { machine := after }) ∨
    a.Fails m (Attempt.ofResult m result) := by
  cases hresult : result with
  | error fault =>
      exact .inr (.untouched a fault)
  | ok after =>
      exact .inl ⟨after, h after hresult, rfl⟩

theorem performs_of_assign {destination source : Operand} {after : Machine}
    (h : m.assign destination source = .ok after) :
    (assign destination source).Performs p m after := by
  obtain ⟨name, hname, h⟩ := Result.bind_eq_ok.mp h
  obtain ⟨value, hvalue, h⟩ := Result.bind_eq_ok.mp h
  cases h
  exact .assign hname hvalue

theorem performs_of_combine {operation : Arithmetic} {destination source : Operand}
    {after : Machine} (h : m.combine operation destination source = .ok after) :
    (combine operation destination source).Performs p m after := by
  obtain ⟨name, hname, h⟩ := Result.bind_eq_ok.mp h
  obtain ⟨lhs, hlhs, h⟩ := Result.bind_eq_ok.mp h
  obtain ⟨rhs, hrhs, h⟩ := Result.bind_eq_ok.mp h
  obtain ⟨value, hvalue, h⟩ := Result.bind_eq_ok.mp h
  cases h
  exact .combine hname hlhs hrhs hvalue

theorem performs_of_compare {lhs rhs : Operand} {after : Machine}
    (h : m.compareOperands lhs rhs = .ok after) :
    (compare lhs rhs).Performs p m after := by
  obtain ⟨a, ha, h⟩ := Result.bind_eq_ok.mp h
  obtain ⟨b, hb, h⟩ := Result.bind_eq_ok.mp h
  cases h
  exact .compare ha hb

theorem performs_of_branch {relation : Relation} {target : Operand} {after : Machine}
    (h : m.branch p relation target = .ok after) :
    (branch relation target).Performs p m after := by
  obtain ⟨index, hindex, h⟩ := Result.bind_eq_ok.mp h
  obtain ⟨⟨a, b⟩, hcompared, h⟩ := Result.bind_eq_ok.mp h
  have hcomparison : m.comparison = some (a, b) := by
    unfold Machine.compared at hcompared
    split at hcompared <;> simp_all
  cases h
  cases hholds : relation.holds a b with
  | true =>
      simpa [hholds] using Performs.taken hindex hcomparison hholds
  | false =>
      simpa [hholds] using Performs.passed hindex hcomparison hholds

theorem performs_of_call {target : Operand} {after : Machine}
    (h : m.call p target = .ok after) : (call target).Performs p m after := by
  obtain ⟨index, hindex, h⟩ := Result.bind_eq_ok.mp h
  cases h
  exact .call hindex

theorem performs_of_ret {after : Machine} (h : m.ret = .ok after) :
    ret.Performs p m after := by
  obtain ⟨⟨index, rest⟩, hpop, h⟩ := Result.bind_eq_ok.mp h
  cases hstack : m.callStack with
  | nil =>
      simp [Machine.pop, hstack] at hpop
  | cons first others =>
      simp only [Machine.pop, hstack, Except.ok.injEq, Prod.mk.injEq] at hpop
      obtain ⟨rfl, rfl⟩ := hpop
      cases h
      exact .ret hstack

/-- **An action performs or fails.** -/
theorem perform_cases (p : Program) (m : Machine) (a : Action) :
    (∃ after, a.Performs p m after ∧ a.perform p m = { machine := after }) ∨
    a.Fails m (a.perform p m) := by
  cases a with
  | assign destination source =>
      exact ofResult_cases fun _ => performs_of_assign
  | combine operation destination source =>
      exact ofResult_cases fun _ => performs_of_combine
  | compare lhs rhs =>
      exact ofResult_cases fun _ => performs_of_compare
  | jump target =>
      refine ofResult_cases fun after h => ?_
      obtain ⟨_, hcast, rfl⟩ := Result.map_eq_ok.mp h
      obtain ⟨index, hindex, hcast⟩ := Result.bind_eq_ok.mp hcast
      cases hcast
      exact .jump hindex
  | branch relation target =>
      exact ofResult_cases fun _ => performs_of_branch
  | call target =>
      exact ofResult_cases fun _ => performs_of_call
  | ret =>
      exact ofResult_cases fun _ => performs_of_ret
  | write parts =>
      simp only [perform, Machine.write_eq]
      cases hrendered : (m.rendered parts).2 with
      | none =>
          exact .inl ⟨_, .write hrendered, rfl⟩
      | some fault =>
          exact .inr (.written parts hrendered)
  | halt =>
      exact .inl ⟨_, .halt, rfl⟩
  | fail fault =>
      exact .inr (.untouched _ fault)

/-- An action leaves the machine that it is said to leave. -/
theorem Performs.perform_eq {a : Action} {after : Machine} (h : a.Performs p m after) :
    a.perform p m = { machine := after } := by
  cases h with
  | assign hname hvalue =>
      simp [perform, Machine.assign, hname, hvalue, Attempt.ofResult, bind, Except.bind, pure,
        Except.pure]
  | combine hname hlhs hrhs hvalue =>
      simp [perform, Machine.combine, hname, hlhs, hrhs, hvalue, Attempt.ofResult, bind,
        Except.bind, pure, Except.pure]
  | compare ha hb =>
      simp [perform, Machine.compareOperands, ha, hb, Attempt.ofResult, bind, Except.bind, pure,
        Except.pure]
  | jump hindex =>
      simp [perform, hindex, Attempt.ofResult, Except.map]
  | taken hindex hcomparison hholds =>
      simp [perform, Machine.branch, Machine.compared, hindex, hcomparison, hholds,
        Attempt.ofResult, bind, Except.bind, pure, Except.pure]
  | passed hindex hcomparison hholds =>
      simp [perform, Machine.branch, Machine.compared, hindex, hcomparison, hholds,
        Attempt.ofResult, bind, Except.bind, pure, Except.pure]
  | call hindex =>
      simp [perform, Machine.call, hindex, Attempt.ofResult, bind, Except.bind, pure, Except.pure]
  | ret hstack =>
      simp [perform, Machine.ret, Machine.pop, hstack, Attempt.ofResult, bind, Except.bind, pure,
        Except.pure]
  | write hrendered =>
      simp [perform, Machine.write_eq, hrendered]
  | halt =>
      rfl

end Action

namespace Instruction

/-- **An instruction performs its action and is counted, or it fails.** -/
theorem execute_cases (p : Program) (m : Machine) (i : Instruction) :
    (∃ after, i.action.Performs p m after ∧ i.execute p m = { machine := after.tick }) ∨
    i.action.Fails m (i.execute p m) := by
  rcases Action.perform_cases p m i.action with ⟨after, hperforms, heq⟩ | hfails
  · left
    exact ⟨after, hperforms, by rw [execute, heq]; rfl⟩
  · right
    rw [execute, hfails.counted_eq]
    exact hfails

end Instruction
end RegisterMachine
