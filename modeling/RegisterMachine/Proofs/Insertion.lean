import RegisterMachine.Proofs.Correspondence

/-!
# Inserting a line that has nothing to execute

A blank line or an unused label may be inserted anywhere in a source.  All lines
behind it are moved by one, and a program counter that falls through to the new
line or returns to it stands one line before the corresponding line until the
new line is skipped.

**Contents.**
* `Text.insertLine`: a source with one more line.
* `Program.Idle`: the lines that change nothing.
* `shift`, `Correspondence.insertion`: where the lines go.

**Results.**
* `Program.Inserted.matches_insertion`: the programs match.
* `Program.ofSource_insertLine`: the longer source can be read.
* `Program.ends_insertLine`: their runs end alike.
-/

namespace RegisterMachine

/-- A text with one more line in front of the line with the given index, or behind the
last line. -/
def Text.insertLine (source : Text) (index : Nat) (line : Text) : Text :=
  unlines (source.lines.take index ++ line :: source.lines.drop index)

theorem Text.lines_insertLine {index : Nat} {line source : Text} (hline : '\n' ∉ line) :
    (source.insertLine index line).lines =
      source.lines.take index ++ line :: source.lines.drop index := by
  apply lines_unlines
  · simp
  · intro other hother
    rcases List.mem_append.mp hother with hbefore | hrest
    · exact newline_not_mem (List.mem_of_mem_take hbefore)
    · rcases List.mem_cons.mp hrest with rfl | hafter
      · exact hline
      · exact newline_not_mem (List.mem_of_mem_drop hafter)

/-- The place of a line after the insertion of another one. -/
def shift (index : Nat) (pc : Int) : Int :=
  if pc < index then pc else pc + 1

/-- The lines of a program correspond to those with one more among them.  At the
insertion, a machine may stand before or behind the new line. -/
def Correspondence.insertion (index : Nat) : Correspondence where
  place := shift index
  Near pc pc' := (pc ≤ index ∧ pc' = pc) ∨ (index ≤ pc ∧ pc' = pc + 1)
  near_start := by
    omega
  near_place pc := by
    unfold shift
    split <;> omega
  near_next pc := by
    unfold shift
    split <;> omega

namespace Program

variable {p p' : Program} {before after : List Line} {line : Line}

/-- Lines behind the insertion are moved by one. -/
theorem getElem?_shift (n : Nat) :
    (before ++ line :: after)[(shift before.length n).toNat]? = (before ++ after)[n]? := by
  unfold shift
  by_cases hn : n < before.length
  · have hlt : (n : Int) < before.length := by omega
    rw [if_pos hlt, Int.toNat_natCast, List.getElem?_append_left hn,
      List.getElem?_append_left hn]
  · have hge : ¬ (n : Int) < before.length := by omega
    have hsucc : ((n : Int) + 1).toNat = n + 1 := by omega
    have hindex : n + 1 - before.length = n - before.length + 1 := by omega
    rw [if_neg hge, hsucc, List.getElem?_append_right (by omega),
      List.getElem?_append_right (by omega), hindex, List.getElem?_cons_succ]

/-- The number of lines without instruction from an index on. -/
def idleLines (lines : List Line) (n : Nat) : Nat :=
  ((lines.drop n).takeWhile Line.isNoop).length

/-- From a line before the insertion, the new line is skipped too if it is reached. -/
theorem idleLines_of_le (hnoop : line.isNoop = true) {n : Nat} (hn : n ≤ before.length) :
    (n + idleLines (before ++ line :: after) n : Int) =
      shift before.length (n + idleLines (before ++ after) n) := by
  unfold idleLines shift
  rw [List.drop_append_of_le_length hn, List.drop_append_of_le_length hn,
    List.takeWhile_append, List.takeWhile_append]
  split
  · -- nothing is executed before the insertion, so the new line is reached
    rw [List.length_append, List.length_append, List.takeWhile_cons_of_pos hnoop,
      List.length_cons, List.length_drop, if_neg (by omega)]
    omega
  · rename_i hall
    have hle := (List.takeWhile_prefix Line.isNoop (l := before.drop n)).length_le
    have hlength := @List.length_drop _ n before
    rw [if_pos (by omega)]

/-- Behind the insertion, the lines are the same. -/
theorem idleLines_of_ge {n : Nat} (hn : before.length ≤ n) :
    ((n + 1 : Nat) + idleLines (before ++ line :: after) (n + 1) : Int) =
      shift before.length (n + idleLines (before ++ after) n) := by
  have hdrop : (before ++ line :: after).drop (n + 1) = (before ++ after).drop n := by
    have hindex : n + 1 - before.length = n - before.length + 1 := by omega
    rw [List.drop_append, List.drop_append, List.drop_eq_nil_of_le (by omega),
      List.drop_eq_nil_of_le hn, hindex, List.drop_succ_cons]
  unfold idleLines shift
  rw [hdrop, if_neg (by omega)]
  omega

/-- What one more line without instruction has to keep: it is at its place, and the labels
that instructions name lead to the same lines. -/
structure Inserted (before after : List Line) (line : Line) (p p' : Program) : Prop where
  lines : p.lines = before ++ after
  lines' : p'.lines = before ++ line :: after
  noop : line.isNoop = true
  resolves : ∀ i ∈ p.instructions, ∀ name, i.target? = some name →
    p'.labels.get? name = (p.labels.get? name).map fun index : Nat =>
      (shift before.length index).toNat

namespace Inserted

variable {m m' : Machine}

theorem size_eq (h : Inserted before after line p p') : p'.size = p.size + 1 := by
  rw [size, size, h.lines, h.lines', List.length_append, List.length_append, List.length_cons]
  omega

theorem le_size (h : Inserted before after line p p') : before.length ≤ p.size := by
  rw [size, h.lines, List.length_append]
  omega

theorem instructionAt?_shift (h : Inserted before after line p p') {pc : Int}
    (hpc : 0 ≤ pc) :
    p'.instructionAt? (shift before.length pc) = p.instructionAt? pc := by
  obtain ⟨n, rfl⟩ := Int.eq_ofNat_of_zero_le hpc
  rw [instructionAt?, instructionAt?, h.lines, h.lines', getElem?_shift, Int.toNat_natCast]

theorem settle_eq (h : Inserted before after line p p') (hpc : 0 ≤ m.pc)
    (hfollows : (Correspondence.insertion before.length).Follows m m') :
    m'.settle p' = (m.settle p).relocate (.insertion before.length) := by
  obtain ⟨pc, hnear, rfl⟩ := hfollows
  obtain ⟨n, hn⟩ := Int.eq_ofNat_of_zero_le hpc
  have hplace : pc + idleLines p'.lines pc.toNat =
      shift before.length (n + idleLines p.lines n) := by
    rw [h.lines, h.lines']
    rcases hnear with ⟨hle, hpc'⟩ | ⟨hge, hpc'⟩
    · have hsame : pc = n := by omega
      rw [hsame, Int.toNat_natCast]
      exact idleLines_of_le h.noop (by omega)
    · have hsucc : pc = (n + 1 : Nat) := by omega
      rw [hsucc, Int.toNat_natCast]
      exact idleLines_of_ge (by omega)
  simp only [Machine.settle, Machine.relocate, Machine.jump, hn, Int.toNat_natCast]
  simp only [idleLines] at hplace
  rw [hplace]
  rfl

theorem locates (h : Inserted before after line p p') {i : Instruction} {name : Text}
    (hi : i ∈ p.instructions) (hname : i.target? = some name) :
    (Correspondence.insertion before.length).Locates p p' (.label name) := by
  unfold Correspondence.Locates
  rw [Action.locate_label, Action.locate_label, h.resolves i hi name hname]
  cases p.labels.get? name with
  | none =>
      exact .error _
  | some index =>
      refine .ok ?_
      have hnear := (Correspondence.insertion before.length).near_place index
      have hnonneg : 0 ≤ shift before.length index := by
        unfold shift
        split <;> omega
      rw [Int.toNat_of_nonneg hnonneg]
      exact hnear

/-- **A program and the one with an idle line more match.** -/
theorem matches_insertion (h : Inserted before after line p p') (hp : p.LaidOut) :
    (Correspondence.insertion before.length).Matches p p' where
  settle _ _ := h.settle_eq
  instructionAt? _ := h.instructionAt?_shift
  size_le pc pc' hnear := by
    have hsize := h.size_eq
    have hle := h.le_size
    intro hend
    rcases hnear with ⟨hle, rfl⟩ | ⟨hge, rfl⟩ <;> omega
  le_place pc hend := by
    have hsize := h.size_eq
    have hle := h.le_size
    show (p'.size : Int) ≤ shift before.length pc
    rw [shift, if_neg (by omega)]
    omega
  locates pc i target hi htarget := by
    obtain ⟨name, rfl, hname⟩ := (hp.decoded pc i hi).target?_eq htarget
    exact h.locates (List.mem_filterMap.mpr ⟨_, mem_of_instructionAt? hi, rfl⟩) hname

end Inserted

/-- The program with one more line. -/
def insert (p : Program) (index : Nat) (line : Line) : Program :=
  let lines := p.lines.take index ++ line :: p.lines.drop index
  { lines, labels := labelsFrom 0 lines }

/-- The labels stay different from each other if the new line defines none of them. -/
theorem nodup_names_insert {index : Nat} (hnodup : (labelsFrom 0 p.lines).names.Nodup)
    (hfresh : ∀ name, line = .label name → .label name ∉ p.lines) :
    (p.insert index line).labels.names.Nodup := by
  have hperm : (p.insert index line).lines.Perm (line :: p.lines) := by
    have hmiddle := @List.perm_middle _ line (p.lines.take index) (p.lines.drop index)
    rw [List.take_append_drop] at hmiddle
    exact hmiddle
  rw [names_labelsFrom] at hnodup
  show (labelsFrom 0 (p.insert index line).lines).names.Nodup
  rw [names_labelsFrom, (hperm.filterMap Line.label?).nodup_iff]
  cases line with
  | label name =>
      refine List.nodup_cons.mpr ⟨?_, hnodup⟩
      intro hmem
      obtain ⟨other, hother, hname⟩ := List.mem_filterMap.mp hmem
      cases other with
      | label _ =>
          cases hname
          exact hfresh name rfl hother
      | _ => cases hname
  | _ => exact hnodup

/-- **A source with one more readable line can be read**, unless the line defines a label
once more. -/
theorem ofSource_insertLine {source raw : Text} (h : ofSource source = .ok p) (index : Nat)
    (hnewline : '\n' ∉ raw) (hraw : Line.ofText raw = .ok line)
    (hfresh : ∀ name, line = .label name → .label name ∉ p.lines) :
    ofSource (source.insertLine index raw) = .ok (p.insert index line) := by
  obtain ⟨hlines, hlabels, hnodup⟩ := ofSource_eq_ok_iff.mp h
  rw [hlabels] at hnodup
  refine ofSource_eq_ok_iff.mpr ⟨?_, rfl, nodup_names_insert hnodup hfresh⟩
  rw [Text.lines_insertLine hnewline]
  exact List.rel_append (List.forall₂_take index hlines)
    (.cons hraw (List.forall₂_drop index hlines))

theorem exists_shift_eq {index target : Nat} (h : target ≠ index) :
    ∃ n : Nat, (shift index n).toNat = target := by
  rcases Nat.lt_or_gt_of_ne h with hlt | hgt
  · refine ⟨target, ?_⟩
    rw [shift, if_pos (by omega)]
    omega
  · refine ⟨target - 1, ?_⟩
    rw [shift, if_neg (by omega)]
    omega

/-- Labels other than a new one lead to the lines they led to. -/
theorem get?_labels_insert {source source' : Text} {name : Text}
    (h : ofSource source = .ok p) (h' : ofSource source' = .ok p')
    (hlines : p.lines = before ++ after) (hlines' : p'.lines = before ++ line :: after)
    (hname : line ≠ .label name) :
    p'.labels.get? name = (p.labels.get? name).map fun index : Nat =>
      (shift before.length index).toNat := by
  ext target
  rw [get?_labels_iff h', Option.map_eq_some_iff, hlines']
  constructor
  · intro htarget
    have hne : target ≠ before.length := by
      rintro rfl
      simp only [List.getElem?_append_right (Nat.le_refl _), Nat.sub_self,
        List.getElem?_cons_zero, Option.some.injEq] at htarget
      exact hname htarget
    obtain ⟨n, rfl⟩ := exists_shift_eq hne
    rw [getElem?_shift, ← hlines] at htarget
    exact ⟨n, (get?_labels_iff h).mpr htarget, rfl⟩
  · rintro ⟨n, hn, rfl⟩
    rw [getElem?_shift, ← hlines]
    exact (get?_labels_iff h).mp hn

/-- The lines that may stand anywhere in a program: without their comment they are blank,
or they define a label that the program neither defines nor names. -/
inductive Idle (p : Program) (raw : Text) : Prop
  | blank (h : Text.trim (Token.uncomment raw) = [])
  | label {name : Text} (h : Text.trim (Token.uncomment raw) = name ++ [':'])
      (hname : Line.isLabelName name = true) (hdefined : .label name ∉ p.lines)
      (hnamed : ∀ i ∈ p.instructions, i.target? ≠ some name)

theorem Idle.exists_line {raw : Text} (h : p.Idle raw) :
    ∃ line, Line.ofText raw = .ok line ∧ line.isNoop = true ∧
      ∀ name, line = .label name →
        .label name ∉ p.lines ∧ ∀ i ∈ p.instructions, i.target? ≠ some name := by
  cases h with
  | blank h =>
      refine ⟨.blank, ?_, rfl, by simp⟩
      simp [Line.ofText, Line.ofStripped, h]
  | @label name h hname hdefined hnamed =>
      refine ⟨.label name, ?_, rfl, ?_⟩
      · simp [Line.ofText, Line.ofStripped, Line.definedLabel?, h, hname]
      · rintro _ ⟨⟩
        exact ⟨hdefined, hnamed⟩

/-- **An idle line may be inserted anywhere.**  The longer source can be read, and under
every limit, or under none, its program ends exactly if the other one does, and alike:
with the same outcome, registers, comparison, output and number of instructions, and
with the line of a failure moved to its new place. -/
theorem ends_insertLine {source raw : Text} {p : Program} {index : Nat}
    (h : ofSource source = .ok p) (hindex : index ≤ source.lines.length)
    (hnewline : '\n' ∉ raw) (hidle : p.Idle raw) :
    ∃ p', ofSource (source.insertLine index raw) = .ok p' ∧
      ∀ limit recording,
        (∀ r, p.Ends limit recording r →
          ∃ r', p'.Ends limit recording r' ∧ Run.SameEnd (shift index) r r') ∧
        (∀ r', p'.Ends limit recording r' →
          ∃ r, p.Ends limit recording r ∧ Run.SameEnd (shift index) r r') := by
  obtain ⟨line, hraw, hnoop, hfresh⟩ := hidle.exists_line
  have h' := ofSource_insertLine h index hnewline hraw fun name hname => (hfresh name hname).1
  refine ⟨_, h', ?_⟩
  obtain ⟨hlines, -, -⟩ := ofSource_eq_ok_iff.mp h
  have hlength : (p.lines.take index).length = index := by
    rw [List.length_take, ← hlines.length_eq]
    omega
  have hinserted : Inserted (p.lines.take index) (p.lines.drop index) line p
      (p.insert index line) := by
    refine ⟨(List.take_append_drop index p.lines).symm, rfl, hnoop, ?_⟩
    intro i hi name hname
    refine get?_labels_insert h h' (List.take_append_drop index p.lines).symm rfl ?_
    intro hline
    exact (hfresh name hline).2 i hi hname
  have hp := laidOut_ofSource h
  have hp' := laidOut_ofSource h'
  have hmatches := hinserted.matches_insertion hp
  rw [hlength] at hmatches
  intro limit recording
  constructor
  · intro r hr
    exact hmatches.ends hp hp' hr
  · intro r' hr'
    exact hmatches.ends_of_ends hp hp' hr'

/-- A line to which a call returns, in front of an instruction that fails. -/
theorem ends_insertLine_return :
    ∃ p, ofSource "call f\ndiv a,0\nf:\nmov a,1\nret".toList = .ok p ∧
      p.Idle "unused: ; here".toList ∧
      ∃ p' r r',
        ofSource (Text.insertLine "call f\ndiv a,0\nf:\nmov a,1\nret".toList 1
          "unused: ; here".toList) = .ok p' ∧
        p.Ends none false r ∧ r.machine.cycles = 3 ∧ r.machine.pc = 1 ∧
        p'.Ends none false r' ∧ Run.SameEnd (shift 1) r r' := by
  obtain ⟨p, hp⟩ : ∃ p, p =
      ({ lines :=
          [.instruction { opcode := .call, operands := [.label ['f']],
                          token := "call".toList, text := "call f".toList },
            .instruction { opcode := .arithmetic .div,
                           operands := [.register ['a'], .integer 0],
                           token := "div".toList, text := "div a,0".toList },
            .label ['f'],
            .instruction { opcode := .mov, operands := [.register ['a'], .integer 1],
                           token := "mov".toList, text := "mov a,1".toList },
            .instruction { opcode := .ret, operands := [],
                           token := "ret".toList, text := "ret".toList }]
         labels := [(['f'], 2)] } : Program) := ⟨_, rfl⟩
  have hsource : ofSource "call f\ndiv a,0\nf:\nmov a,1\nret".toList = .ok p := by
    subst hp
    decide +kernel
  have hidle : p.Idle "unused: ; here".toList := by
    subst hp
    refine @Idle.label _ _ "unused".toList ?_ ?_ ?_ ?_ <;> decide +kernel
  have hover : ((Run.start p).proceed none false 4).isOver = true := by
    subst hp
    decide +kernel
  have hends := ends_none_iff.mpr ⟨4, rfl, hover⟩
  obtain ⟨p', hsource', hp'⟩ :=
    @ends_insertLine _ _ p 1 hsource (by decide +kernel) (by decide +kernel) hidle
  obtain ⟨r', hends', hsame⟩ := (hp' none false).1 _ hends
  refine ⟨p, hsource, hidle, p', _, r', hsource', hends, ?_, ?_, hends', hsame⟩
  · subst hp
    decide +kernel
  · subst hp
    decide +kernel

end Program
end RegisterMachine
