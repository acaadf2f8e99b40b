import RegisterMachine.Proofs.Frame

/-!
# The registers of a run

A register comes into being when `MOV` writes it for the first time.  Every other operation
that writes a register reads it before, so that it needs one that is already there.

**Contents.**
* `Instruction.assigned?`, `Execution.assigned?`: the register that a `MOV` writes.
* `Run.Registered`: what the executed instructions have to do with the registers of a run.

**Results.**
* `Instruction.Decoded.names_of_performs`: only `MOV` adds a register.
* `Run.Registered.step`: one step keeps `Registered`.
* `Program.LaidOut.registered_course`: it holds along every course.
* `Program.names_eq_assigned`: the registers of every run, in their order.
-/

namespace RegisterMachine

/-- A name behind others is new, or has its place among them. -/
theorem Table.eraseDups_concat (names : List Text) (name : Text) :
    (names ++ [name]).eraseDups =
      if name ∈ names then names.eraseDups else names.eraseDups ++ [name] := by
  rw [List.eraseDups_append]
  split <;> simp_all [List.removeAll, List.eraseDups_cons]

namespace Instruction

variable {i : Instruction} {p : Program} {m after : Machine}

/-- The register that a `MOV` writes. -/
def assigned? (i : Instruction) : Option Text :=
  if i.opcode = .mov then i.destination? else none

theorem assigned?_eq_some_iff {name : Text} :
    i.assigned? = some name ↔
      i.opcode = .mov ∧ i.operands.head? = some (.register name) := by
  have hregister (o : Operand) : o.register? = some name ↔ o = .register name := by
    cases o <;> simp [Operand.register?]
  by_cases hopcode : i.opcode = .mov
  · simp [assigned?, destination?, hopcode, Option.bind_eq_some_iff, hregister]
  · simp [assigned?, hopcode]

namespace Decoded

/-- An operation other than `MOV` needs the register that it writes. -/
theorem mem_names_of_performs (hi : i.Decoded) (h : i.action.Performs p m after)
    (hopcode : i.opcode ≠ .mov) {name : Text} (hname : i.destination? = some name) :
    name ∈ m.registers.names := by
  have hform := hi.form
  generalize i.action = a at h hform
  cases hform with
  | mov hmov _ _ =>
      exact absurd hmov hopcode
  | inc hinc hoperands | dec hinc hoperands | arithmetic hinc hoperands _ =>
      cases h with
      | @combine _ _ _ read lhs _ _ hread hlhs _ _ =>
          cases hread
          simp only [destination?, hinc, hoperands, List.head?_cons, Option.bind_some,
            Operand.register?, Option.some.injEq] at hname
          subst hname
          -- the destination is read first, and an unset one is a fault
          by_contra hmem
          rw [Machine.read_of_get?_none (Table.get?_eq_none_iff.mpr hmem)] at hlhs
          cases hlhs
  | _ hother =>
      simp only [destination?, hother] at hname
      cases hname

/-- **Only `MOV` adds a register**, behind the others. -/
theorem names_of_performs (hi : i.Decoded) (h : i.action.Performs p m after) :
    after.registers.names =
      match i.assigned? with
      | some name =>
          if name ∈ m.registers.names then m.registers.names else m.registers.names ++ [name]
      | none => m.registers.names := by
  rcases hi.registers_of_performs h with ⟨hnone, hsame⟩ | ⟨name, value, hname, hput⟩
  · have hassigned : i.assigned? = none := by
      simp [assigned?, hnone]
    rw [hassigned, hsame]
  · by_cases hopcode : i.opcode = .mov
    · rw [assigned?, if_pos hopcode, hname, hput, Table.names_put]
    · rw [assigned?, if_neg hopcode, hput, Table.names_put,
        if_pos (hi.mem_names_of_performs h hopcode hname)]

end Decoded

/-- An instruction that stops at an unset register needs one that is not there. -/
theorem not_mem_names_of_firstHazard {name : Text}
    (h : i.firstHazard p m = some (.unsetRegister name)) : name ∉ m.registers.names := by
  obtain ⟨hazard, hmem, heq⟩ := List.exists_of_findSome?_eq_some h
  -- only one of the hazards is an unset register
  have hunset : m.firstUnset i.reads = some name := by
    simp only [hazards, List.mem_cons, List.not_mem_nil, or_false] at hmem
    rcases hmem with rfl | rfl | rfl | rfl | rfl | rfl | rfl <;> simp_all
  have hnone : (m.registers.get? name).isNone = true :=
    List.find?_some (p := fun name => (m.registers.get? name).isNone) hunset
  exact Table.get?_eq_none_iff.mp (Option.isNone_iff_eq_none.mp hnone)

end Instruction

/-- The register that was written, if a `MOV` was executed. -/
def Execution.assigned? (e : Execution) : Option Text :=
  e.instruction.assigned?

namespace Run

/-- What the executed instructions have to do with the registers of a run. -/
structure Registered (es : List Execution) (r : Run) : Prop where
  /-- There is a register for each `MOV`, in the order of the first one of each name. -/
  names : r.machine.registers.names = (es.filterMap Execution.assigned?).eraseDups
  /-- A register that is found unset is not there. -/
  unset : ∀ failure name, r.abort = some (.failed failure) →
    failure.fault = .unsetRegister name → name ∉ r.machine.registers.names

namespace Registered

variable {es : List Execution} {r after : Run}

theorem initial (p : Program) : Registered [] (start p) where
  names := rfl
  unset _ _ h := by cases h

theorem stalls (h : Registered es r) (hsound : r.Sound) (hstalls : r.Stalls after) :
    Registered es after := by
  cases hstalls with
  | ended _ =>
      exact h
  | ranOff hover _ =>
      exact ⟨h.names, by simp [abort_of_not_isOver hover]⟩
  | exhausted _ _ =>
      refine ⟨h.names, fun failure name habort _ => ?_⟩
      cases Abort.ofSpent_eq_some habort
  | @failed i fault history hover hi hfails hfault =>
      have hregisters : (i.execute r.program r.ready).machine.registers = r.machine.registers :=
        hfails.registers_eq
      refine ⟨?_, ?_⟩
      · show (i.execute r.program r.ready).machine.registers.names = _
        rw [hregisters]
        exact h.names
      · rintro _ name ⟨⟩ hname
        have hfirst : i.firstHazard r.program r.ready = some (.unsetRegister name) := by
          rw [← hsound.fault_ready hi, hfault]
          exact congrArg some hname
        show name ∉ (i.execute r.program r.ready).machine.registers.names
        rw [hregisters]
        exact Instruction.not_mem_names_of_firstHazard hfirst

/-- **One step keeps what the executed instructions have to do with the registers.** -/
theorem step (h : Registered es r) (hsound : r.Sound) (limit : Option Int) (recording : Bool) :
    Registered (es ++ (r.execution? limit recording).toList) (r.next limit recording) := by
  rcases step_cases limit recording r with
    ⟨i, after, hexecution, hover, hi, hperforms, hnext⟩ | ⟨hnone, hstalls⟩
  · have hdecoded := hsound.laidOut.decoded r.ready.pc i hi
    have hnames := hdecoded.names_of_performs hperforms
    have hready : r.ready.registers.names = (es.filterMap Execution.assigned?).eraseDups :=
      h.names
    rw [hexecution, hnext]
    refine ⟨?_, by simp [abort_of_not_isOver hover]⟩
    show after.registers.names = _
    rw [hnames, hready, Option.toList_some, List.filterMap_append]
    cases hassigned : i.assigned? with
    | none =>
        simp [Execution.assigned?, hassigned]
    | some name =>
        simp [Execution.assigned?, hassigned, Table.eraseDups_concat, List.mem_eraseDups]
  · rw [hnone, Option.toList_none, List.append_nil]
    exact h.stalls hsound hstalls

end Registered
end Run

namespace Program

variable {p : Program}

theorem LaidOut.registered_course (h : p.LaidOut) (s : Schedule) (n : Nat) :
    Run.Registered (p.executions s n) (p.course s n) := by
  induction n with
  | zero =>
      exact .initial p
  | succ n ih =>
      rw [executions_succ, course_succ]
      exact ih.step (h.sound_course s n) (s.limit n) (s.recording n)

/-- What has been executed stays executed. -/
theorem isPrefix_executions (p : Program) (s : Schedule) {n k : Nat} (hle : n ≤ k) :
    p.executions s n <+: p.executions s k := by
  induction k, hle using Nat.le_induction with
  | base =>
      exact List.prefix_rfl
  | succ k _ ih =>
      rw [executions_succ]
      exact ih.trans (List.prefix_append _ _)

/-- **Registers exist from their first `MOV` on.** -/
theorem names_eq_assigned {source : Text} (h : ofSource source = .ok p) :
    (∀ s n, (p.course s n).machine.registers.names =
      ((p.executions s n).filterMap Execution.assigned?).eraseDups) ∧
    (∀ s n failure name, (p.course s n).abort = some (.failed failure) →
      failure.fault = .unsetRegister name →
        ∀ e ∈ p.executions s n, e.assigned? ≠ some name) ∧
    (∀ s n k, n ≤ k →
      (p.course s n).machine.registers.names <+: (p.course s k).machine.registers.names) ∧
    (∀ s n name, name ∉ (p.course s n).machine.registers.names →
      name ∈ (p.course s (n + 1)).machine.registers.names →
        ∃ e, p.executed? s n = some e ∧ e.instruction.opcode = .mov ∧
          e.instruction.operands.head? = some (.register name)) := by
  have hp := laidOut_ofSource h
  have hnames s n := (hp.registered_course s n).names
  refine ⟨hnames, ?_, ?_, ?_⟩
  · intro s n failure name habort hfault e he hassigned
    have hunset := (hp.registered_course s n).unset failure name habort hfault
    rw [hnames, List.mem_eraseDups] at hunset
    exact hunset (List.mem_filterMap.mpr ⟨e, he, hassigned⟩)
  · intro s n k hle
    obtain ⟨es, hes⟩ := isPrefix_executions p s hle
    rw [hnames, hnames, ← hes, List.filterMap_append, List.eraseDups_append]
    exact List.prefix_append _ _
  · intro s n name hold hnew
    rw [hnames, List.mem_eraseDups] at hold hnew
    rw [executions_succ, List.filterMap_append, List.mem_append, or_iff_right hold,
      List.mem_filterMap] at hnew
    obtain ⟨e, he, hassigned⟩ := hnew
    obtain ⟨hopcode, hhead⟩ := Instruction.assigned?_eq_some_iff.mp hassigned
    exact ⟨e, Option.mem_toList.mp he, hopcode, hhead⟩

/-- Registers in another order than by name, and one that is never set. -/
theorem names_eq_assigned_unset :
    ∃ p, ofSource "mov b,1\nmov a,b\nadd b,a\nmov b,-7\ninc c".toList = .ok p ∧
      (p.course (.constant none false) 4).machine.registers.names = [['b'], ['a']] ∧
      ((p.executions (.constant none false) 4).filterMap Execution.assigned? =
        [['b'], ['a'], ['b']]) ∧
      ∃ failure, (p.course (.constant none false) 5).abort = some (.failed failure) ∧
        failure.fault = .unsetRegister ['c'] ∧
        ∀ e ∈ p.executions (.constant none false) 5, e.assigned? ≠ some ['c'] := by
  obtain ⟨p, hp⟩ : ∃ p, p =
      ({ lines :=
          [.instruction { opcode := .mov, operands := [.register ['b'], .integer 1],
                          token := "mov".toList, text := "mov b,1".toList },
            .instruction { opcode := .mov, operands := [.register ['a'], .register ['b']],
                           token := "mov".toList, text := "mov a,b".toList },
            .instruction { opcode := .arithmetic .add,
                           operands := [.register ['b'], .register ['a']],
                           token := "add".toList, text := "add b,a".toList },
            .instruction { opcode := .mov, operands := [.register ['b'], .integer (-7)],
                           token := "mov".toList, text := "mov b,-7".toList },
            .instruction { opcode := .inc, operands := [.register ['c']],
                           token := "inc".toList, text := "inc c".toList }] } : Program) :=
    ⟨_, rfl⟩
  have hsource :
      ofSource "mov b,1\nmov a,b\nadd b,a\nmov b,-7\ninc c".toList = .ok p := by
    subst hp
    decide +kernel
  obtain ⟨hnames, hunset, -, -⟩ := names_eq_assigned hsource
  have hassigned : (p.executions (.constant none false) 4).filterMap Execution.assigned? =
      [['b'], ['a'], ['b']] := by
    subst hp
    decide +kernel
  have habort : (p.course (.constant none false) 5).abort =
      some (.failed { fault := .unsetRegister ['c'], line := some 4,
                      source := some "inc c".toList, output := [] }) := by
    subst hp
    decide +kernel
  refine ⟨p, hsource, ?_, hassigned, _, habort, rfl, hunset _ _ _ _ habort rfl⟩
  rw [hnames, hassigned]
  decide

end Program
end RegisterMachine
