import RegisterMachine.Proofs.Execution

/-!
# Calls and returns

A call puts its own line on the call stack.  Whatever is executed from then on, by
however deeply nested calls, that line stays where it is until the return that
belongs to the call takes it off and goes on behind it.

**Results.**
* `Action.Performs.callStack_cases`: what an action does to the call stack.
* `Run.callStack_next`: one step keeps the frame of a call or returns from it.
* `Program.callStack_course`: so does a whole segment of a run.
* `Program.returns_of_callStack_lt`: the first shorter call stack is that of the call.
-/

namespace RegisterMachine

/-- An action leaves the call stack, calls from the line at hand, or returns. -/
theorem Action.Performs.callStack_cases {p : Program} {m after : Machine} {a : Action}
    (h : a.Performs p m after) :
    after.callStack = m.callStack ∨
    (∃ target, a = .call target ∧ after.callStack = m.pc :: m.callStack) ∨
    (a = .ret ∧ ∃ index, m.callStack = index :: after.callStack ∧ after.pc = index + 1) := by
  cases h with
  | call hindex =>
      exact .inr (.inl ⟨_, rfl, rfl⟩)
  | ret hstack =>
      exact .inr (.inr ⟨rfl, _, hstack, rfl⟩)
  | _ =>
      exact .inl rfl

theorem Action.Fails.callStack_eq {m : Machine} {a : Action} {attempt : Attempt}
    (h : a.Fails m attempt) : attempt.machine.callStack = m.callStack := by
  cases h <;> rfl

theorem Instruction.opcode_eq_ret {i : Instruction} (h : i.action = .ret) : i.opcode = .ret := by
  cases hopcode : i.opcode with
  | ret =>
      rfl
  | msg | halt | unknown | invalid =>
      simp only [action, hopcode] at h
      cases h
  | _ =>
      simp only [action, hopcode, Action.unary.eq_def, Action.binary.eq_def] at h
      split at h <;> cases h

/-- A call that succeeds puts the line at hand on the call stack. -/
theorem Instruction.callStack_of_call {i : Instruction} {p : Program} {m after : Machine}
    (hopcode : i.opcode = .call) (h : i.action.Performs p m after) :
    after.callStack = m.pc :: m.callStack := by
  simp only [action, hopcode, Action.unary.eq_def] at h
  split at h
  · cases h
    rfl
  · cases h

namespace Run

variable {r after : Run}

theorem Stalls.callStack_eq (h : r.Stalls after) :
    after.machine.callStack = r.machine.callStack := by
  cases h with
  | failed _ _ hfails _ =>
      exact hfails.callStack_eq
  | _ =>
      rfl

/-- **One step keeps the frame of a call, or returns from the call.** -/
theorem callStack_next (limit : Option Int) (recording : Bool) {line : Int} {frames : List Int}
    (h : (line :: frames) <:+ r.machine.callStack) :
    (line :: frames) <:+ (r.next limit recording).machine.callStack ∨
    (∃ e, r.execution? limit recording = some e ∧ e.instruction.opcode = .ret ∧
      (r.next limit recording).machine.pc = line + 1 ∧
      (r.next limit recording).machine.callStack = frames) := by
  rcases step_cases limit recording r with
    ⟨i, after, hexecution, -, -, hperforms, hnext⟩ | ⟨-, hstalls⟩
  · rw [hnext]
    rcases hperforms.callStack_cases with
      hsame | ⟨target, -, hcall⟩ | ⟨haction, index, hstack, hpc⟩
    · left
      show (line :: frames) <:+ after.callStack
      rw [hsame]
      exact h
    · left
      show (line :: frames) <:+ after.callStack
      rw [hcall]
      exact h.trans (List.suffix_cons _ _)
    · -- the innermost line goes: it is the line of the call, or lies above it
      have hready : r.machine.callStack = index :: after.callStack := hstack
      rw [hready] at h
      rcases List.suffix_cons_iff.mp h with heq | hsuffix
      · cases heq
        exact .inr ⟨_, hexecution, Instruction.opcode_eq_ret haction, hpc, rfl⟩
      · exact .inl hsuffix
  · left
    rw [hstalls.callStack_eq]
    exact h

end Run

namespace Program

variable {p : Program} {s : Schedule} {n k : Nat}

theorem callStack_course_succ {call : Execution} (hcall : p.executed? s n = some call)
    (hopcode : call.instruction.opcode = .call) :
    (p.course s (n + 1)).machine.callStack = call.machine.pc :: call.machine.callStack := by
  rw [course_succ]
  rcases Run.step_cases (s.limit n) (s.recording n) (p.course s n) with
    ⟨i, after, hexecution, -, -, hperforms, hnext⟩ | ⟨hnone, -⟩
  · have hsame := hexecution.symm.trans hcall
    cases hsame
    rw [hnext]
    show after.callStack = _
    exact Instruction.callStack_of_call hopcode hperforms
  · have hcontra := hnone.symm.trans hcall
    cases hcontra

/-- **A segment of a run keeps the frame of a call, or returns from the call**, and keeps
the frame until then. -/
theorem callStack_course {line : Int} {frames : List Int}
    (h : (line :: frames) <:+ (p.course s n).machine.callStack) (k : Nat) :
    (∀ l, n ≤ l → l ≤ n + k → (line :: frames) <:+ (p.course s l).machine.callStack) ∨
    (∃ j e, n ≤ j ∧ j < n + k ∧ p.executed? s j = some e ∧ e.instruction.opcode = .ret ∧
      (p.course s (j + 1)).machine.pc = line + 1 ∧
      (p.course s (j + 1)).machine.callStack = frames ∧
      ∀ l, n ≤ l → l ≤ j → (line :: frames) <:+ (p.course s l).machine.callStack) := by
  induction k with
  | zero =>
      left
      intro l hge hle
      have heq : l = n := by omega
      rw [heq]
      exact h
  | succ k ih =>
      rcases ih with hkept | ⟨j, e, hge, hlt, hreturn⟩
      · rcases Run.callStack_next (s.limit (n + k)) (s.recording (n + k))
          (hkept (n + k) (by omega) (by omega)) with hnext | ⟨e, he, hopcode, hpc, hframes⟩
        · left
          intro l hge hle
          rcases Nat.lt_or_eq_of_le hle with hlt | rfl
          · exact hkept l hge (by omega)
          · rw [← Nat.add_assoc, course_succ]
            exact hnext
        · right
          rw [← course_succ] at hpc hframes
          exact ⟨n + k, e, by omega, by omega, he, hopcode, hpc, hframes, hkept⟩
      · exact .inr ⟨j, e, hge, by omega, hreturn⟩

/-- **Calls and returns match at any depth.**  If a call is executed and some later state
has fewer lines on its call stack than the call left, then the first such state comes from
a return, stands behind the call and has the call stack of the call; in every state
between, the line of the call lies on that stack, below all other lines. -/
theorem returns_of_callStack_lt {call : Execution} (hcall : p.executed? s n = some call)
    (hopcode : call.instruction.opcode = .call) (hlater : n < k)
    (hshort : (p.course s k).machine.callStack.length < call.machine.callStack.length + 1) :
    ∃ j e, n < j ∧ j < k ∧ p.executed? s j = some e ∧ e.instruction.opcode = .ret ∧
      (p.course s (j + 1)).machine.pc = call.machine.pc + 1 ∧
      (p.course s (j + 1)).machine.callStack = call.machine.callStack ∧
      ∀ l, n < l → l ≤ j →
        (call.machine.pc :: call.machine.callStack) <:+ (p.course s l).machine.callStack := by
  have hstack := callStack_course_succ hcall hopcode
  obtain ⟨d, rfl⟩ : ∃ d, k = n + 1 + d := ⟨k - (n + 1), by omega⟩
  have hframe : (call.machine.pc :: call.machine.callStack) <:+
      (p.course s (n + 1)).machine.callStack := by
    simp only [hstack, List.suffix_refl]
  rcases callStack_course hframe d with hkept | ⟨j, e, hge, hlt, hreturn⟩
  · have hlength := (hkept (n + 1 + d) (by omega) (Nat.le_refl _)).length_le
    rw [List.length_cons] at hlength
    omega
  · exact ⟨j, e, hge, hlt, hreturn⟩

/-- A call inside a call returns first. -/
theorem returns_of_callStack_lt_nested :
    ∃ p call, ofSource "call f\nend\nf: ; outer\ncall g\nret\ng:\nret".toList = .ok p ∧
      p.executed? (.constant none false) 0 = some call ∧ call.instruction.opcode = .call ∧
      (p.course (.constant none false) 2).machine.callStack = [3, 0] ∧
      ∃ j e, 0 < j ∧ j < 4 ∧ p.executed? (.constant none false) j = some e ∧
        e.instruction.opcode = .ret ∧
        (p.course (.constant none false) (j + 1)).machine.pc = 1 ∧
        (p.course (.constant none false) (j + 1)).machine.callStack = [] ∧
        ∀ l, 0 < l → l ≤ j →
          [0] <:+ (p.course (.constant none false) l).machine.callStack := by
  obtain ⟨p, hp⟩ : ∃ p, p =
      ({ lines :=
          [.instruction { opcode := .call, operands := [.label ['f']],
                          token := "call".toList, text := "call f".toList },
            .instruction { opcode := .halt, operands := [],
                           token := "end".toList, text := "end".toList },
            .label ['f'],
            .instruction { opcode := .call, operands := [.label ['g']],
                           token := "call".toList, text := "call g".toList },
            .instruction { opcode := .ret, operands := [],
                           token := "ret".toList, text := "ret".toList },
            .label ['g'],
            .instruction { opcode := .ret, operands := [],
                           token := "ret".toList, text := "ret".toList }]
         labels := [(['f'], 2), (['g'], 5)] } : Program) := ⟨_, rfl⟩
  have hsource : ofSource "call f\nend\nf: ; outer\ncall g\nret\ng:\nret".toList = .ok p := by
    subst hp
    decide +kernel
  have hcall : p.executed? (.constant none false) 0 =
      some { machine := {}
             instruction := { opcode := .call, operands := [.label ['f']],
                              token := "call".toList, text := "call f".toList } } := by
    subst hp
    decide +kernel
  have hdeep : (p.course (.constant none false) 2).machine.callStack = [3, 0] := by
    subst hp
    decide +kernel
  have hshort : (p.course (.constant none false) 4).machine.callStack.length < 1 := by
    subst hp
    decide +kernel
  refine ⟨p, _, hsource, hcall, rfl, hdeep, ?_⟩
  exact returns_of_callStack_lt hcall rfl (by decide) hshort

end Program
end RegisterMachine
