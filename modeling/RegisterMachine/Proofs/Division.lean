import RegisterMachine.Proofs.Frame

/-!
# Division

The quotient of two integers is rounded toward zero.  What it leaves of the dividend is
smaller than the divisor and has the sign of the dividend, and no other integer has this
property.  A quotient of words is a word, except for that of the least word by minus one, so
that a division of registers loses something in this one case only.

**Contents.**
* `Arithmetic.Truncates`: an integer is the quotient of two others, rounded toward zero.

**Results.**
* `Arithmetic.truncates_iff`: there is just one such quotient.
* `Word.wrap_tdiv`: the word of a quotient of words.
* `Instruction.Decoded.execute_of_apply`, `Instruction.Decoded.execute_of_fault`: an operation
  stores the word of its value, or fails and stores nothing.
* `Arithmetic.quotient_truncates`: the law of division, and what a division stores.
-/

namespace RegisterMachine

namespace Arithmetic

variable {d v q : Int}

/-- An integer leaves less than the divisor of a dividend, with the dividend's sign unless
nothing is left. -/
structure Truncates (d v q : Int) : Prop where
  small : (d - q * v).natAbs < v.natAbs
  sign : d - q * v = 0 ∨ (d - q * v).sign = d.sign

theorem tmod_eq (d v : Int) : d.tmod v = d - d.tdiv v * v := by
  rw [Int.tmod_def, Int.mul_comm]

theorem truncates_tdiv (d : Int) (hv : v ≠ 0) : Truncates d v (d.tdiv v) := by
  have hsign := Int.sign_tmod d v
  refine ⟨?_, ?_⟩
  · rw [← tmod_eq, Int.natAbs_tmod]
    exact Nat.mod_lt _ (Int.natAbs_pos.mpr hv)
  · rw [← tmod_eq]
    split at hsign
    · exact .inl (Int.sign_eq_zero_iff_zero.mp hsign)
    · exact .inr hsign

/-- **There is just one quotient** that is rounded toward zero. -/
theorem truncates_iff (hv : v ≠ 0) : Truncates d v q ↔ q = d.tdiv v := by
  constructor
  · rintro ⟨hsmall, hsign⟩
    -- remainders on the same side of zero have the same quotient
    rcases Int.le_total 0 d with hd | hd
    · have hnonneg : 0 ≤ d - q * v := by
        rcases hsign with hzero | hsame
        · exact Int.le_of_eq hzero.symm
        · rwa [← Int.sign_nonneg_iff, hsame, Int.sign_nonneg_iff]
      have hunique := (Int.tdiv_tmod_unique hd hv).mpr
        ⟨by rw [Int.mul_comm v q, Int.sub_add_cancel], hnonneg, by omega⟩
      exact hunique.1.symm
    · have hnonpos : d - q * v ≤ 0 := by
        rcases hsign with hzero | hsame
        · exact Int.le_of_eq hzero
        · rwa [← Int.sign_nonpos_iff, hsame, Int.sign_nonpos_iff]
      have hunique := (Int.tdiv_tmod_unique' hd hv).mpr
        ⟨by rw [Int.mul_comm v q, Int.sub_add_cancel], by omega, hnonpos⟩
      exact hunique.1.symm
  · rintro rfl
    exact truncates_tdiv d hv

end Arithmetic

namespace Word

variable {d v : Int}

/-- A quotient of words is a word, unless the least word is divided by minus one. -/
theorem inRange_tdiv (hd : InRange d) (hv : v ≠ 0) (hexcept : ¬ (d = least ∧ v = -1)) :
    InRange (d.tdiv v) := by
  have habs : (d.tdiv v).natAbs = d.natAbs / v.natAbs := Int.natAbs_tdiv d v
  simp only [InRange, least, greatest] at hd hexcept ⊢
  by_cases hone : v.natAbs = 1
  · have hunit : v = 1 ∨ v = -1 := Int.natAbs_eq_iff.mp hone
    rcases hunit with rfl | rfl
    · rw [Int.tdiv_one]
      exact hd
    · rw [Int.tdiv_neg, Int.tdiv_one]
      omega
  · have htwo : 2 ≤ v.natAbs := by
      have hpos := Int.natAbs_pos.mpr hv
      omega
    have hhalf : d.natAbs / v.natAbs ≤ d.natAbs / 2 := Nat.div_le_div_left htwo (by decide)
    omega

/-- **The word of a quotient of words** is the quotient, except in one case. -/
theorem wrap_tdiv (hd : InRange d) (hv : v ≠ 0) :
    wrap (d.tdiv v) = if d = least ∧ v = -1 then least else d.tdiv v := by
  split
  · rename_i hexcept
    obtain ⟨rfl, rfl⟩ := hexcept
    decide
  · rename_i hexcept
    exact wrap_of_inRange (inRange_tdiv hd hv hexcept)

end Word

/-- A value that an operand has is what it evaluates to. -/
theorem Machine.eval_of_value? {m : Machine} {operand : Operand} {value : Int}
    (h : m.value? operand = some value) : m.eval operand = .ok value := by
  cases operand with
  | integer n =>
      cases h
      rfl
  | register name =>
      exact read_of_get?_some h
  | _ => cases h

namespace Instruction.Decoded

variable {i : Instruction} {p : Program} {m : Machine} {operation : Arithmetic} {a b : Int}

/-- On a sound machine, the values of the operands are words. -/
theorem inRange_operandValue (hi : i.Decoded) (hm : m.Sound p) {place : Nat}
    (h : i.operandValue? m place = some a) : Word.InRange a := by
  obtain ⟨operand, hoperand, hvalue⟩ := Option.bind_eq_some_iff.mp h
  apply hm.inRange_eval _ (Machine.eval_of_value? hvalue)
  rintro n rfl
  exact hi.words n (List.mem_of_getElem? hoperand)

/-- What an instruction combines whose operands have values. -/
theorem exists_combine (hi : i.Decoded) (hopcode : i.opcode = .arithmetic operation)
    (ha : i.operandValue? m 0 = some a) (hb : i.operandValue? m 1 = some b) :
    ∃ name source, i.destination? = some name ∧
      i.action = .combine operation (.register name) source ∧
      m.read name = .ok a ∧ m.eval source = .ok b := by
  have hform := hi.form
  generalize haction : i.action = action at hform
  cases hform with
  | @arithmetic other name source hother hoperands _ =>
      rw [hopcode, Opcode.arithmetic.injEq] at hother
      subst hother
      rw [operandValue?, hoperands] at ha hb
      refine ⟨name, source, ?_, rfl, Machine.read_of_get?_some ha, Machine.eval_of_value? hb⟩
      simp [destination?, hopcode, hoperands, Operand.register?]
  | _ hother =>
      rw [hopcode] at hother
      cases hother

/-- An operation that has a value stores its word. -/
theorem execute_of_apply (hi : i.Decoded) (hopcode : i.opcode = .arithmetic operation)
    (ha : i.operandValue? m 0 = some a) (hb : i.operandValue? m 1 = some b) {value : Int}
    (hvalue : operation.apply a b = .ok value) (p : Program) :
    ∃ name, i.destination? = some name ∧
      i.execute p m = { machine := (m.set name value).advance.tick } := by
  obtain ⟨name, source, hname, haction, hlhs, hrhs⟩ := hi.exists_combine hopcode ha hb
  have hperforms : i.action.Performs p m (m.set name value).advance := by
    rw [haction]
    exact .combine rfl hlhs hrhs hvalue
  refine ⟨name, hname, ?_⟩
  rw [execute, hperforms.perform_eq]
  rfl

/-- An operation that has no value fails and stores nothing. -/
theorem execute_of_fault (hi : i.Decoded) (hopcode : i.opcode = .arithmetic operation)
    (ha : i.operandValue? m 0 = some a) (hb : i.operandValue? m 1 = some b) {fault : Fault}
    (hfault : operation.apply a b = .error fault) (p : Program) :
    i.execute p m = { machine := m, fault := some fault } := by
  obtain ⟨name, source, -, haction, hlhs, hrhs⟩ := hi.exists_combine hopcode ha hb
  have hcombine : m.combine operation (.register name) source = .error fault := by
    simp [Machine.combine, Operand.name, hlhs, hrhs, hfault, bind, Except.bind]
  rw [execute, haction, Action.perform, hcombine]
  rfl

end Instruction.Decoded

namespace Arithmetic

/-- A division by zero reports its dividend, if that can be shown. -/
theorem quotient_zero_of_isShowable (h : Numeral.isShowable d = true) :
    quotient d 0 = .error (.divisionByZero d) := by
  rw [quotient_zero, Fault.ofDividend_of_isShowable h]

theorem quotient_zero_of_not_isShowable (h : Numeral.isShowable d = false) :
    quotient d 0 = .error (.unshowable {}) := by
  rw [quotient_zero, Fault.ofDividend_of_not_isShowable h]

/-- **The law of division**, and what a division stores.  The quotient is the one integer that
is rounded toward zero, and changes its sign with the dividend and with the divisor; by zero
there is none, and the dividend is reported unless it is too long to be shown.  On every
machine that a session can reach, a division has words as its operands; by zero it fails, and
otherwise it stores the quotient, except that of the least word by minus one. -/
theorem quotient_truncates (d v : Int) :
    (v = 0 → quotient d v =
      .error (if Numeral.isShowable d then .divisionByZero d else .unshowable {})) ∧
    (v ≠ 0 → ∃ q, quotient d v = .ok q ∧ (∀ other, Truncates d v other ↔ other = q) ∧
      quotient (-d) v = .ok (-q) ∧ quotient d (-v) = .ok (-q)) ∧
    (∀ s r text i, Session.Reachable s → s.current = some r →
      Instruction.ofText text = .ok i → i.opcode = .arithmetic .div →
      i.operandValue? r.machine 0 = some d → i.operandValue? r.machine 1 = some v →
      Word.InRange d ∧ Word.InRange v ∧
      (v = 0 → i.execute r.program r.machine =
        { machine := r.machine, fault := some (.divisionByZero d) }) ∧
      (v ≠ 0 → ∃ name q, i.destination? = some name ∧ quotient d v = .ok q ∧
        (i.execute r.program r.machine).fault = none ∧
        (i.execute r.program r.machine).machine.registers.get? name =
          some (if d = Word.least ∧ v = -1 then Word.least else q))) := by
  refine ⟨?_, ?_, ?_⟩
  · rintro rfl
    cases hshort : Numeral.isShowable d with
    | true => exact quotient_zero_of_isShowable hshort
    | false => exact quotient_zero_of_not_isShowable hshort
  · intro hv
    refine ⟨d.tdiv v, quotient_of_ne_zero d hv, fun other => truncates_iff hv, ?_, ?_⟩
    · rw [quotient_of_ne_zero _ hv, Int.neg_tdiv]
    · rw [quotient_of_ne_zero _ (Int.neg_ne_zero.mpr hv), Int.tdiv_neg]
  · intro s r text i hs hr htext hopcode hd hv
    have hi := Instruction.decoded_ofText htext
    have hsound := (hs.sound r hr).machine
    have hrange := hi.inRange_operandValue hsound hd
    refine ⟨hrange, hi.inRange_operandValue hsound hv, ?_, ?_⟩
    · rintro rfl
      have hzero := quotient_zero_of_isShowable hrange.isShowable
      exact hi.execute_of_fault hopcode hd hv hzero r.program
    · intro hne
      have hvalue := quotient_of_ne_zero d hne
      obtain ⟨name, hname, hexecute⟩ := hi.execute_of_apply hopcode hd hv hvalue r.program
      refine ⟨name, d.tdiv v, hname, hvalue, by rw [hexecute], ?_⟩
      rw [hexecute, ← Word.wrap_tdiv hrange hne]
      show (r.machine.registers.put name (Word.wrap (d.tdiv v))).get? name = _
      rw [Table.get?_put, if_pos rfl]

/-- A quotient of different signs, and the one that is no word. -/
theorem quotient_truncates_least :
    quotient (-7) 2 = .ok (-3) ∧ (∀ other, Truncates (-7) 2 other ↔ other = -3) ∧
    ∃ s r i, Session.Reachable s ∧ s.current = some r ∧
      Instruction.ofText "div a,-1".toList = .ok i ∧
      r.machine.registers = [(['a'], Word.least)] ∧
      quotient Word.least (-1) = .ok 2147483648 ∧ ¬ Word.InRange 2147483648 ∧
      (i.execute r.program r.machine).machine.registers.get? ['a'] = some Word.least := by
  obtain ⟨-, hlaw, -⟩ := quotient_truncates (-7) 2
  obtain ⟨q, hq, hunique, -⟩ := hlaw (by decide)
  cases hq
  refine ⟨rfl, hunique, ?_⟩
  obtain ⟨p, hp⟩ : ∃ p, p =
      ({ lines :=
          [.instruction { opcode := .mov, operands := [.register ['a'], .integer Word.least],
                          token := "mov".toList, text := "mov a,-2147483648".toList }] }
        : Program) := ⟨_, rfl⟩
  obtain ⟨i, hi⟩ : ∃ i, i =
      ({ opcode := .arithmetic .div, operands := [.register ['a'], .integer (-1)],
         token := "div".toList, text := "div a,-1".toList } : Instruction) := ⟨_, rfl⟩
  have hload : ({} : Session).load "mov a,-2147483648".toList = .ok (Session.install {} p) := by
    subst hp
    decide +kernel
  have hread : Instruction.ofText "div a,-1".toList = .ok i := by
    subst hi
    decide +kernel
  have hreach := ((Session.Reachable.fresh none false).next (.load hload)).next (.step _)
  obtain ⟨-, -, hstored⟩ := quotient_truncates Word.least (-1)
  have hregisters : ((Run.start p).next none false).machine.registers =
      [(['a'], Word.least)] := by
    subst hp
    decide +kernel
  have hcurrent := congrArg Session.current (Session.step_of_current
    (show (Session.install {} p).current = some (Run.start p) from rfl))
  have hvalue : i.operandValue? ((Run.start p).next none false).machine 0 =
      some Word.least := by
    subst hi
    show ((Run.start p).next none false).machine.registers.get? ['a'] = some Word.least
    rw [hregisters]
    rfl
  obtain ⟨-, -, -, hdivides⟩ := hstored _ _ _ i hreach hcurrent hread (by rw [hi]) hvalue
    (by rw [hi]; rfl)
  obtain ⟨name, q, hname, -, -, hname'⟩ := hdivides (by decide)
  have hdestination : name = ['a'] := by
    rw [hi] at hname
    cases hname
    rfl
  rw [hdestination] at hname'
  exact ⟨_, _, i, hreach, hcurrent, hread, hregisters, rfl, by decide, hname'⟩

/-- A dividend with one digit too many is not reported. -/
theorem quotient_overlong :
    quotient Numeral.overlong 0 = .error (.unshowable {}) ∧
      quotient Numeral.overlong 0 ≠ .error (.divisionByZero Numeral.overlong) := by
  have hquotient := quotient_zero_of_not_isShowable Numeral.not_isShowable_overlong
  refine ⟨hquotient, ?_⟩
  rw [hquotient]
  simp

end Arithmetic
end RegisterMachine
