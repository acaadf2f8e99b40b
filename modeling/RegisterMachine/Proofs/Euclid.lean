import RegisterMachine.Playground.Sample
import RegisterMachine.Proofs.Budget
import RegisterMachine.Proofs.Literals
import RegisterMachine.Proofs.Routine

/-!
# Euclid's algorithm

The sample that computes a greatest common divisor is right for every two words.  It takes the
remainder in a subroutine, by a quotient, a product and a difference, each of which is wrapped;
the remainder comes out as it should all the same, and it gets smaller from round to round
whatever the signs are.

**Contents.**
* `Sample.loading`, `Sample.statement`: lines of the sample, as text and as they are read.
* `Sample.euclidProgram`: the program of the sample.

**Results.**
* `Word.wrap_remainder`: wrapped quotients and products leave the remainder.
* `Sample.ofSource_euclid`: the sample is read as its program.
* `Sample.euclid_mod`, `Sample.euclid_round`, `Sample.euclid_gcd`: the subroutine, a round of the
  loop, and the whole loop.
* `runSource?_euclid`: from the source to the output.
-/

namespace RegisterMachine
namespace Word

/-- The remainder by a word other than zero is a word. -/
theorem inRange_tmod {x y : Int} (hy : InRange y) (hne : y ≠ 0) : InRange (x.tmod y) := by
  have habs : (x.tmod y).natAbs = x.natAbs % y.natAbs := Int.natAbs_tmod x y
  have hlt : x.natAbs % y.natAbs < y.natAbs := Nat.mod_lt _ (Int.natAbs_pos.mpr hne)
  simp only [InRange, least, greatest] at hy ⊢
  omega

/-- **The remainder is what the product of the quotient leaves**, although the quotient and the
product are wrapped. -/
theorem wrap_remainder {x y : Int} (hy : InRange y) (hne : y ≠ 0) :
    wrap (x - wrap (wrap (x.tdiv y) * y)) = x.tmod y := by
  -- what the inner wrappings add or take away is a multiple of the modulus
  have hwrap : wrap (x - wrap (wrap (x.tdiv y) * y)) = wrap (x - x.tdiv y * y) := by
    simp [wrap_eq_bmod]
  rw [hwrap, Int.mul_comm, ← Int.tmod_def]
  exact wrap_of_inRange (inRange_tmod hy hne)

end Word

/-- A label name is one token wherever it stands. -/
theorem Token.whole_of_labelName {name : Text} (h : Line.LabelName name) : Whole name := by
  have hletters : ∀ c ∈ name, Line.continuesLabel c = true := fun _ =>
    Line.continuesLabel_of_mem (Line.isLabelName_iff.mpr h)
  obtain ⟨hunbroken, hclosed⟩ := unbroken_of_plain fun c hc =>
    Line.plain_of_continuesLabel (hletters c hc)
  refine ⟨⟨hclosed, bare_of_not_mem ?_, ?_⟩, ?_, hunbroken⟩
  · exact fun hmem => absurd (hletters _ hmem) (by decide)
  · exact fun hmem => absurd (hletters _ hmem) (by decide)
  · rintro rfl
    cases h

namespace Sample

/-- The line that gives a register its first value. -/
def loading (name : Text) (value : Int) : Text :=
  "    mov ".toList ++ Text.joined [name, Numeral.write value]

/-- A line with an instruction. -/
def statement (opcode : Opcode) (token : String) (operands : List Operand) (text : Text) : Line :=
  .instruction { opcode, operands, token := token.toList, text }

/-- The program of the sample. -/
def euclidProgram (a b : Int) : Program where
  lines :=
    [.blank,
      statement .mov "mov" [.register ['a'], .integer a] (Text.trim (loading ['a'] a)),
      statement .mov "mov" [.register ['b'], .integer b] (Text.trim (loading ['b'] b)),
      statement .call "call" [.label ['g', 'c', 'd']] "call gcd".toList,
      statement .msg "msg" [.text "gcd(81, 153) = ".toList, .register ['a']]
        "msg 'gcd(81, 153) = ', a".toList,
      statement .halt "end" [] "end".toList,
      .blank,
      .label ['g', 'c', 'd'],
      statement .compare "cmp" [.register ['b'], .integer 0] "cmp b, 0".toList,
      statement (.branch .eq) "je" [.label ['d', 'o', 'n', 'e']] "je done".toList,
      statement .mov "mov" [.register ['c'], .register ['a']] "mov c, a".toList,
      statement .call "call" [.label ['m', 'o', 'd']] "call mod".toList,
      statement .mov "mov" [.register ['a'], .register ['b']] "mov a, b".toList,
      statement .mov "mov" [.register ['b'], .register ['c']] "mov b, c".toList,
      statement .jump "jmp" [.label ['g', 'c', 'd']] "jmp gcd".toList,
      .label ['d', 'o', 'n', 'e'],
      statement .ret "ret" [] "ret".toList,
      .blank,
      .label ['m', 'o', 'd'],
      statement .mov "mov" [.register ['t'], .register ['c']] "mov t, c".toList,
      statement (.arithmetic .div) "div" [.register ['t'], .register ['b']] "div t, b".toList,
      statement (.arithmetic .mul) "mul" [.register ['t'], .register ['b']] "mul t, b".toList,
      statement (.arithmetic .sub) "sub" [.register ['c'], .register ['t']] "sub c, t".toList,
      statement .ret "ret" [] "ret".toList,
      .blank]
  labels := [(['g', 'c', 'd'], 7), (['d', 'o', 'n', 'e'], 15), (['m', 'o', 'd'], 18)]

/-- A line that loads a word is read as it was meant. -/
theorem ofText_loading {name : Text} {value : Int} (hname : Line.LabelName name)
    (hvalue : Word.InRange value) :
    '\n' ∉ loading name value ∧
      Line.ofText (loading name value) =
        .ok (statement .mov "mov" [.register name, .integer value]
          (Text.trim (loading name value))) := by
  have hwhole : ∀ t ∈ [name, Numeral.write value], Token.Whole t := by
    simp only [List.forall_mem_cons]
    exact ⟨Token.whole_of_labelName hname, Token.whole_write_integer value, by simp⟩
  have hclosed : Token.Closed (loading name value) := by
    have hmnemonic : Token.Closed "    mov ".toList :=
      ⟨rfl, Token.bare_of_not_mem (by decide), by decide⟩
    exact hmnemonic.append (.joined fun t ht => (hwhole t ht).toClosed)
  have hsplit : Token.split (loading name value) =
      "mov".toList :: [name, Numeral.write value] := by
    have hblank : ∀ c ∈ List.replicate 4 ' ', Token.separates (c, false) = true := by
      intro c hc
      rw [List.eq_of_mem_replicate hc]
      rfl
    have hindent := Token.split_append_of_separates hblank
      ("mov".toList ++ ' ' :: Text.joined [name, Numeral.write value])
    rw [Opcode.split_of_ofToken (by decide),
      Token.split_joined (Token.sequence_of_whole hwhole)] at hindent
    exact hindent
  have hread : [name, Numeral.write value].mapM Operand.ofToken =
      .ok [.register name, .integer value] := by
    have hinteger := Operand.ofToken_write_integer (Numeral.isShowable_of_inRange hvalue)
    rw [Word.wrap_of_inRange hvalue] at hinteger
    exact Result.mapM_of_forall₂
      (.cons (Line.ofToken_of_labelName hname) (.cons hinteger .nil))
  refine ⟨hclosed.newline, ?_⟩
  rw [Line.ofText_of_split hclosed hsplit (by decide), hread]
  rfl

theorem toList_eq_loading {s : String} {name : Text}
    (h : s.toList = "    mov ".toList ++ (name ++ [',', ' '])) (value : Int) :
    (s ++ Numeral.str value).toList = loading name value := by
  have hwrite : (Numeral.str value).toList = Numeral.write value := String.toList_ofList
  calc (s ++ Numeral.str value).toList = s.toList ++ Numeral.write value := by
        rw [String.toList_append, hwrite]
    _ = "    mov ".toList ++ Text.joined [name, Numeral.write value] := by
        simp only [h, Token.joined_cons, List.flatMap_singleton, List.append_assoc]

/-- **The sample is read as its program.** -/
theorem ofSource_euclid {a b : Int} (ha : Word.InRange a) (hb : Word.InRange b) :
    Program.ofSource (euclid a b) = .ok (euclidProgram a b) := by
  have hletters : Line.LabelName ['a'] ∧ Line.LabelName ['b'] := by
    rw [← Line.isLabelName_iff, ← Line.isLabelName_iff]
    decide
  obtain ⟨hnewline, hread⟩ := ofText_loading hletters.1 ha
  obtain ⟨hnewline', hread'⟩ := ofText_loading hletters.2 hb
  have hleft := @toList_eq_loading "    mov a, " ['a'] (by decide +kernel) a
  have hright := @toList_eq_loading "    mov b, " ['b'] (by decide +kernel) b
  rw [Program.ofSource_eq_ok_iff, euclid, ofLines, Text.lines_unlines]
  · -- all lines but these two are the same for all integers
    refine ⟨.cons (by decide +kernel) (.cons ?_ (.cons ?_ (by decide +kernel))), rfl, ?_⟩
    · rw [hleft, hread]
    · rw [hright, hread']
    · show [['g', 'c', 'd'], ['d', 'o', 'n', 'e'], ['m', 'o', 'd']].Nodup
      decide
  · exact List.cons_ne_nil _ _
  · rw [List.map_cons, List.map_cons, List.map_cons, hleft, hright]
    simp only [List.forall_mem_cons]
    exact ⟨by decide, hnewline, hnewline', by decide⟩

open Machine

variable {u v x y line : Int} {m : Machine} {frames : List Int}

/-- **The subroutine takes the remainder**, and leaves the divisor as it is. -/
theorem euclid_mod (hm : m.Stands 18 (line :: frames)) (hc : m.registers.get? ['c'] = some x)
    (hb : m.registers.get? ['b'] = some y) (hx : Word.InRange x) (hy : Word.InRange y)
    (hne : y ≠ 0) :
    ∃ after, Goes (euclidProgram u v) m (line + 1) frames after ∧
      after.registers.get? ['c'] = some (x.tmod y) ∧ after.registers.get? ['b'] = some y := by
  have hmov : (euclidProgram u v).atHand? 18 =
      some (19, .assign (.register ['t']) (.register ['c'])) := rfl
  have hdiv : (euclidProgram u v).atHand? 20 =
      some (20, .combine .div (.register ['t']) (.register ['b'])) := rfl
  have hmul : (euclidProgram u v).atHand? 21 =
      some (21, .combine .mul (.register ['t']) (.register ['b'])) := rfl
  have hsub : (euclidProgram u v).atHand? 22 =
      some (22, .combine .sub (.register ['c']) (.register ['t'])) := rfl
  have hret : (euclidProgram u v).atHand? 23 = some (23, .ret) := rfl
  obtain ⟨m₁, h₁, hr₁⟩ := hm.assign hmov (read_of_get?_some hc)
  have ht₁ : m₁.registers.get? ['t'] = some x := by
    simp [hr₁, Table.get?_put, Word.wrap_of_inRange hx]
  have hb₁ : m₁.registers.get? ['b'] = some y := by
    simp [hr₁, Table.get?_put, hb]
  obtain ⟨m₂, h₂, hr₂⟩ := h₁.stands.combine hdiv (read_of_get?_some ht₁)
    (read_of_get?_some hb₁) (Arithmetic.quotient_of_ne_zero x hne)
  have ht₂ : m₂.registers.get? ['t'] = some (Word.wrap (x.tdiv y)) := by
    simp [hr₂, Table.get?_put]
  have hb₂ : m₂.registers.get? ['b'] = some y := by
    simp [hr₂, Table.get?_put, hb₁]
  obtain ⟨m₃, h₃, hr₃⟩ := h₂.stands.combine hmul (read_of_get?_some ht₂)
    (read_of_get?_some hb₂) rfl
  have ht₃ : m₃.registers.get? ['t'] = some (Word.wrap (Word.wrap (x.tdiv y) * y)) := by
    simp [hr₃, Table.get?_put]
  have hc₃ : m₃.registers.get? ['c'] = some x := by
    simp [hr₃, hr₂, hr₁, Table.get?_put, hc]
  obtain ⟨m₄, h₄, hr₄⟩ := h₃.stands.combine hsub (read_of_get?_some hc₃)
    (read_of_get?_some ht₃) rfl
  obtain ⟨after, h₅, hr₅⟩ := h₄.stands.ret hret
  refine ⟨after, h₁.trans (h₂.trans (h₃.trans (h₄.trans h₅))), ?_, ?_⟩
  · rw [hr₅, hr₄, Table.get?_put, if_pos rfl, Word.wrap_remainder hy hne]
  · simp [hr₅, hr₄, hr₃, Table.get?_put, hb₂]

/-- The loop goes on as long as the divisor is not zero. -/
theorem euclid_test (hm : m.Stands 7 frames) (hb : m.registers.get? ['b'] = some y) :
    ∃ after, Goes (euclidProgram u v) m (if y = 0 then 15 else 10) frames after ∧
      after.registers = m.registers := by
  have hcmp : (euclidProgram u v).atHand? 7 =
      some (8, .compare (.register ['b']) (.integer 0)) := rfl
  have hje : (euclidProgram u v).atHand? (8 + 1) =
      some (9, .branch .eq (.label ['d', 'o', 'n', 'e'])) := rfl
  obtain ⟨after, h, hr⟩ := hm.test hcmp hje (read_of_get?_some hb) rfl rfl
  refine ⟨after, ?_, hr⟩
  simpa [Relation.holds] using h

/-- **A round of the loop** goes on with the divisor and the remainder. -/
theorem euclid_round (hm : m.Stands 7 frames) (ha : m.registers.get? ['a'] = some x)
    (hb : m.registers.get? ['b'] = some y) (hx : Word.InRange x) (hy : Word.InRange y)
    (hne : y ≠ 0) :
    ∃ after, Goes (euclidProgram u v) m 7 frames after ∧
      after.registers.get? ['a'] = some y ∧ after.registers.get? ['b'] = some (x.tmod y) := by
  have hdividend : (euclidProgram u v).atHand? 10 =
      some (10, .assign (.register ['c']) (.register ['a'])) := rfl
  have hcall : (euclidProgram u v).atHand? 11 =
      some (11, .call (.label ['m', 'o', 'd'])) := rfl
  have hdivisor : (euclidProgram u v).atHand? 12 =
      some (12, .assign (.register ['a']) (.register ['b'])) := rfl
  have hremainder : (euclidProgram u v).atHand? 13 =
      some (13, .assign (.register ['b']) (.register ['c'])) := rfl
  have hjmp : (euclidProgram u v).atHand? 14 =
      some (14, .jump (.label ['g', 'c', 'd'])) := rfl
  obtain ⟨m₁, h₁, hr₁⟩ := euclid_test hm hb
  rw [if_neg hne] at h₁
  have ha₁ : m₁.registers.get? ['a'] = some x := by
    rw [hr₁, ha]
  obtain ⟨m₂, h₂, hr₂⟩ := h₁.stands.assign hdividend (read_of_get?_some ha₁)
  obtain ⟨m₃, h₃, hr₃⟩ := h₂.stands.call hcall rfl
  have hc₃ : m₃.registers.get? ['c'] = some x := by
    simp [hr₃, hr₂, Table.get?_put, Word.wrap_of_inRange hx]
  have hb₃ : m₃.registers.get? ['b'] = some y := by
    simp [hr₃, hr₂, hr₁, Table.get?_put, hb]
  obtain ⟨m₄, h₄, hc₄, hb₄⟩ := euclid_mod h₃.stands hc₃ hb₃ hx hy hne
  obtain ⟨m₅, h₅, hr₅⟩ := h₄.stands.assign hdivisor (read_of_get?_some hb₄)
  have hc₅ : m₅.registers.get? ['c'] = some (x.tmod y) := by
    simp [hr₅, Table.get?_put, hc₄]
  obtain ⟨m₆, h₆, hr₆⟩ := h₅.stands.assign hremainder (read_of_get?_some hc₅)
  obtain ⟨after, h₇, hr₇⟩ := h₆.stands.jump hjmp rfl
  refine ⟨after, h₁.trans (h₂.trans (h₃.trans (h₄.trans (h₅.trans (h₆.trans h₇))))), ?_, ?_⟩
  · simp [hr₇, hr₆, hr₅, Table.get?_put, Word.wrap_of_inRange hy]
  · simp [hr₇, hr₆, Table.get?_put, Word.wrap_of_inRange (Word.inRange_tmod hy hne)]

/-- The loop returns when the divisor is zero. -/
theorem euclid_done (hm : m.Stands 7 (line :: frames))
    (hb : m.registers.get? ['b'] = some 0) :
    ∃ after, Goes (euclidProgram u v) m (line + 1) frames after ∧
      after.registers = m.registers := by
  have hret : (euclidProgram u v).atHand? 15 = some (16, .ret) := rfl
  obtain ⟨m₁, h₁, hr₁⟩ := euclid_test hm hb
  rw [if_pos rfl] at h₁
  obtain ⟨after, h₂, hr₂⟩ := h₁.stands.ret hret
  exact ⟨after, h₁.trans h₂, hr₂.trans hr₁⟩

/-- **The loop leaves the greatest common divisor.**  The remainder by a divisor is smaller
than the divisor, whatever their signs are. -/
theorem euclid_gcd (hm : m.Stands 7 (line :: frames)) (ha : m.registers.get? ['a'] = some x)
    (hb : m.registers.get? ['b'] = some y) (hx : Word.InRange x) (hy : Word.InRange y) :
    ∃ after r, Goes (euclidProgram u v) m (line + 1) frames after ∧
      after.registers.get? ['a'] = some r ∧ Word.InRange r ∧
        r.natAbs = Nat.gcd x.natAbs y.natAbs := by
  -- every round comes back to the line of the label, with a smaller divisor
  induction hsize : y.natAbs using Nat.strong_induction_on generalizing m x y with
  | _ size ih =>
      by_cases hne : y = 0
      · subst hne
        obtain ⟨after, h, hr⟩ := euclid_done hm hb
        refine ⟨after, x, h, by rw [hr, ha], hx, ?_⟩
        rw [← hsize, Int.natAbs_zero, Nat.gcd_zero_right]
      · obtain ⟨m₁, h₁, ha₁, hb₁⟩ := euclid_round hm ha hb hx hy hne
        have hremainder : (x.tmod y).natAbs = x.natAbs % y.natAbs := Int.natAbs_tmod x y
        have hlt : (x.tmod y).natAbs < size := by
          rw [hremainder, ← hsize]
          exact Nat.mod_lt _ (Int.natAbs_pos.mpr hne)
        obtain ⟨after, r, h₂, hr, hword, hgcd⟩ :=
          ih _ hlt h₁.stands ha₁ hb₁ hy (Word.inRange_tmod hy hne) rfl
        refine ⟨after, r, h₁.trans h₂, hr, hword, ?_⟩
        calc r.natAbs = Nat.gcd y.natAbs (x.natAbs % y.natAbs) := by rw [hgcd, hremainder]
          _ = Nat.gcd y.natAbs x.natAbs := by rw [Nat.gcd_comm, ← Nat.gcd_rec]
          _ = Nat.gcd x.natAbs size := by rw [Nat.gcd_comm, hsize]

/-- The whole program, from its first line to its end. -/
theorem euclid_leads (hx : Word.InRange x) (hy : Word.InRange y) :
    ∃ after r, Leads (euclidProgram x y) {} after ∧ after.halted = true ∧
      after.result = some ("gcd(81, 153) = ".toList ++ Numeral.write r) ∧
      after.callStack = [] ∧ r.natAbs = Nat.gcd x.natAbs y.natAbs := by
  have hleft : (euclidProgram x y).atHand? 0 = some (1, .assign (.register ['a']) (.integer x)) :=
    rfl
  have hright : (euclidProgram x y).atHand? 2 =
      some (2, .assign (.register ['b']) (.integer y)) := rfl
  have hcall : (euclidProgram x y).atHand? 3 =
      some (3, .call (.label ['g', 'c', 'd'])) := rfl
  have hmsg : (euclidProgram x y).atHand? 4 =
      some (4, .write [.text "gcd(81, 153) = ".toList, .register ['a']]) := rfl
  have hend : (euclidProgram x y).atHand? 5 = some (5, .halt) := rfl
  have hstart : Stands {} 0 [] := ⟨rfl, rfl, rfl⟩
  obtain ⟨m₁, h₁, hr₁⟩ := hstart.assign hleft rfl
  obtain ⟨m₂, h₂, hr₂⟩ := h₁.stands.assign hright rfl
  obtain ⟨m₃, h₃, hr₃⟩ := h₂.stands.call hcall rfl
  have ha₃ : m₃.registers.get? ['a'] = some x := by
    simp [hr₃, hr₂, hr₁, Table.get?_put, Word.wrap_of_inRange hx]
  have hb₃ : m₃.registers.get? ['b'] = some y := by
    simp [hr₃, hr₂, Table.get?_put, Word.wrap_of_inRange hy]
  obtain ⟨m₄, r, h₄, hr₄, hword, hgcd⟩ := euclid_gcd h₃.stands ha₃ hb₃ hx hy
  have hsofar := h₁.trans (h₂.trans (h₃.trans h₄))
  have htext : m₄.rendered [.text "gcd(81, 153) = ".toList, .register ['a']] =
      ("gcd(81, 153) = ".toList ++ Numeral.write r, none) := by
    have hvalue : m₄.value? (.register ['a']) = some r := hr₄
    have hrender : m₄.render (.register ['a']) = .ok (Numeral.write r) := by
      rw [render_of_value? hvalue, Numeral.shown_of_isShowable hword.isShowable]
      rfl
    have htitle : m₄.render (.text "gcd(81, 153) = ".toList) = .ok "gcd(81, 153) = ".toList := rfl
    simp only [rendered, htitle, hrender, List.append_nil]
  obtain ⟨m₅, h₅, hstands, houtput, -⟩ := h₄.stands.write hmsg htext
  obtain ⟨after, h₆, hhalted, hresult, hstack⟩ := hstands.halt hend
  refine ⟨after, r, (hsofar.leads.trans h₅).trans h₆, hhalted, ?_, hstack, hgcd⟩
  rw [hresult, houtput, hsofar.output]
  rfl

end Sample

/-- **The sample computes the greatest common divisor** of any two words. -/
theorem runSource?_euclid {a b : Int} (ha : Word.InRange a) (hb : Word.InRange b) :
    ∃ run n, (∀ fuel, n ≤ fuel → runSource? (Sample.euclid a b) none fuel = .ok (some run)) ∧
      (∃ r, run.outcome = .finished ("gcd(81, 153) = ".toList ++ Numeral.write r) ∧
        r.natAbs = Nat.gcd a.natAbs b.natAbs) ∧
      run.abort = none ∧ run.machine.callStack = [] := by
  obtain ⟨after, r, hleads, hhalted, hresult, hstack, hgcd⟩ := Sample.euclid_leads ha hb
  obtain ⟨n, hn⟩ := Program.run?_of_leads hleads hhalted
  refine ⟨{ program := Sample.euclidProgram a b, machine := after }, n, fun fuel hfuel => ?_,
    ⟨r, ?_, hgcd⟩, rfl, hstack⟩
  · rw [runSource?, Sample.ofSource_euclid ha hb, ← hn fuel hfuel]
    rfl
  · simp [Run.outcome, Outcome.ofResult, Machine.finished, hhalted, hresult]

/-- The least word and minus one, whose quotient is no word. -/
theorem runSource?_euclid_least :
    Word.InRange (-2147483648) ∧ Word.InRange (-1) ∧
      ¬ Word.InRange (Int.tdiv (-2147483648) (-1)) ∧
      ∃ run n, (∀ fuel, n ≤ fuel →
          runSource? (Sample.euclid (-2147483648) (-1)) none fuel = .ok (some run)) ∧
        run.outcome = .finished "gcd(81, 153) = -1".toList ∧ run.abort = none ∧
        run.machine.callStack = [] := by
  have hleast : Word.InRange (-2147483648) := by decide
  have hminus : Word.InRange (-1) := by decide
  obtain ⟨run, n, hrun, -, habort, hstack⟩ := runSource?_euclid hleast hminus
  obtain ⟨p, hp⟩ : ∃ p, p = Sample.euclidProgram (-2147483648) (-1) := ⟨_, rfl⟩
  have hends : p.Ends none false run := by
    have hfuel := hrun n (Nat.le_refl n)
    rw [runSource?, Sample.ofSource_euclid hleast hminus, ← hp] at hfuel
    exact ⟨n, by simpa [Except.map] using hfuel⟩
  have hwhole : p.Ends none false ((Run.start p).proceed none false 20) := by
    refine Program.ends_none_iff.mpr ⟨20, rfl, ?_⟩
    subst hp
    decide +kernel
  refine ⟨hleast, hminus, by decide, run, n, hrun, ?_, habort, hstack⟩
  rw [hends.unique hwhole]
  subst hp
  decide +kernel

end RegisterMachine
