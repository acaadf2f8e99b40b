import RegisterMachine.Proofs.Layout

/-!
# Sources put together

A source may be cut at each of its newlines.  What a line holds does not depend on the
lines on the other side of the cut, except that no label may be defined on both sides.

**Contents.**
* `Program.append`: two programs, one behind the other.
* `Program.Fresh`, `Program.Clash`: whether the labels of lines are all new to a table, and
  the first line whose label is not.

**Results.**
* `Program.ofLines_append`: lines are read from the first on, with the labels found so far.
* `Program.ofLines_of_fresh`, `Program.ofLines_of_clash`: reading lines behind a table.
* `Program.ofSource_append`: reading two sources as one.
-/

namespace RegisterMachine

/-- A newline between two texts separates their lines. -/
theorem Text.lines_append (s t : Text) : lines (s ++ '\n' :: t) = lines s ++ lines t :=
  List.splitOnP_append_cons s t (beq_self_eq_true '\n')

namespace Table

variable {α : Type}

theorem get?_append_of_some {t : Table α} {name : Text} {value : α}
    (h : get? t name = some value) (other : Table α) : get? (t ++ other) name = some value := by
  unfold get? at h ⊢
  rw [List.lookup_append, h, Option.some_or]

end Table

namespace Program

variable {p q : Program} {index : Nat} {labels : Table Nat} {lines : List Line}
variable {raws : List Text}

/-- Two programs, one behind the other: the lines of the second one, and with them its
labels, are moved behind the lines of the first. -/
def append (p q : Program) : Program where
  lines := p.lines ++ q.lines
  labels := p.labels ++ q.labels.map fun entry => (entry.1, p.size + entry.2)

/-- Lines none of which defines a label of a table. -/
def Fresh (labels : Table Nat) (lines : List Line) : Prop :=
  ∀ name, .label name ∈ lines → labels.get? name = none

/-- The first of the given lines that defines a label of a table, and what the table binds
the label to. -/
structure Clash (labels : Table Nat) (lines : List Line) (place : Nat) (name : Text)
    (target : Nat) : Prop where
  line : lines[place]? = some (.label name)
  bound : labels.get? name = some target
  fresh : Fresh labels (lines.take place)

/-- Lines are fresh, or one of them is the first that is not. -/
theorem fresh_or_clash (labels : Table Nat) (lines : List Line) :
    Fresh labels lines ∨ ∃ place name target, Clash labels lines place name target := by
  induction lines with
  | nil =>
      left
      intro name hname
      cases hname
  | cons line lines ih =>
      by_cases hline : Fresh labels [line]
      · rcases ih with hfresh | ⟨place, name, target, hclash⟩
        · left
          intro name hname
          rcases List.mem_cons.mp hname with rfl | hname
          · exact hline name List.mem_cons_self
          · exact hfresh name hname
        · right
          refine ⟨place + 1, name, target, hclash.line, hclash.bound, ?_⟩
          intro other hother
          rcases List.mem_cons.mp hother with rfl | hother
          · exact hline other List.mem_cons_self
          · exact hclash.fresh other hother
      · right
        simp only [Fresh, List.mem_singleton, not_forall] at hline
        obtain ⟨name, rfl, hbound⟩ := hline
        obtain ⟨target, htarget⟩ := Option.ne_none_iff_exists'.mp hbound
        exact ⟨0, name, target, rfl, htarget, by simp [Fresh]⟩

/-- Lines that begin at a higher index have their labels moved as much. -/
theorem labelsFrom_add (offset index : Nat) (lines : List Line) :
    labelsFrom (offset + index) lines =
      (labelsFrom index lines).map fun entry => (entry.1, offset + entry.2) := by
  induction lines generalizing index with
  | nil =>
      rfl
  | cons line lines ih =>
      have hindex : offset + index + 1 = offset + (index + 1) := by omega
      cases line <;> simp [labelsFrom, hindex, ih]

theorem label_mem_iff {name : Text} :
    name ∈ (labelsFrom index lines).names ↔ .label name ∈ lines := by
  rw [names_labelsFrom, List.mem_filterMap]
  constructor
  · rintro ⟨line, hline, hname⟩
    cases line with
    | label other =>
        cases hname
        exact hline
    | _ => cases hname
  · intro hline
    exact ⟨_, hline, rfl⟩

/-- Fresh lines that define no label twice go on with a table that binds none twice. -/
theorem nodup_names_of_fresh (hlabels : labels.names.Nodup)
    (hlines : (labelsFrom index lines).names.Nodup) (hfresh : Fresh labels lines) :
    (labels ++ labelsFrom index lines).names.Nodup := by
  rw [Table.names, List.map_append]
  refine List.nodup_append.mpr ⟨hlabels, hlines, ?_⟩
  rintro name hname _ hdefined rfl
  exact Table.get?_eq_none_iff.mp (hfresh name (label_mem_iff.mp hdefined)) hname

/-- **Lines are read from the first on:** the second part of them with the labels that the
first part has left, unless the first part cannot be read. -/
theorem ofLines_append (index : Nat) (labels : Table Nat) (first second : List Text) :
    ofLines index labels (first ++ second) =
      (ofLines index labels first).bind fun p =>
        (ofLines (index + first.length) p.labels second).map fun q =>
          { q with lines := p.lines ++ q.lines } := by
  induction first generalizing index labels with
  | nil =>
      show ofLines index labels second = (ofLines index labels second).map fun q => q
      cases ofLines index labels second <;> rfl
  | cons raw first ih =>
      have hindex : index + 1 + first.length = index + (first.length + 1) := by omega
      rw [List.cons_append, ofLines, ofLines]
      cases Line.ofText raw with
      | error e =>
          rfl
      | ok line =>
          simp only
          cases define index labels line with
          | error e =>
              rfl
          | ok defined =>
              simp only [ih, hindex, List.length_cons]
              cases ofLines (index + 1) defined first with
              | error e =>
                  rfl
              | ok p =>
                  show Except.map _ (Except.map _ _) = Except.map _ _
                  cases ofLines (index + (first.length + 1)) p.labels second <;> rfl

/-- Fresh lines behind a table are read, and their labels come behind those of the table. -/
theorem ofLines_of_fresh (hlabels : labels.names.Nodup)
    (hraws : List.Forall₂ (fun raw line => Line.ofText raw = .ok line) raws lines)
    (hlines : (labelsFrom index lines).names.Nodup) (hfresh : Fresh labels lines) :
    ofLines index labels raws = .ok { lines, labels := labels ++ labelsFrom index lines } :=
  (ofLines_eq_ok_iff hlabels).mpr ⟨hraws, rfl, nodup_names_of_fresh hlabels hlines hfresh⟩

/-- Of lines that clash with a table, the first one that does is reported. -/
theorem ofLines_of_clash {place target : Nat} {name : Text} (hlabels : labels.names.Nodup)
    (hraws : List.Forall₂ (fun raw line => Line.ofText raw = .ok line) raws lines)
    (hlines : (labelsFrom index lines).names.Nodup)
    (hclash : Clash labels lines place name target) :
    ofLines index labels raws =
      .error (.parse (.duplicateLabel name target (index + place : Nat))) := by
  obtain ⟨hplace, hline⟩ := List.getElem?_eq_some_iff.mp hclash.line
  have hraw : place < raws.length := by
    rw [hraws.length_eq]
    exact hplace
  -- the lines before the clash are fresh, so that they are read
  have hbefore : (labelsFrom index (lines.take place)).names.Nodup := by
    rw [names_labelsFrom] at hlines ⊢
    exact hlines.sublist ((List.take_sublist place lines).filterMap Line.label?)
  have hread := ofLines_of_fresh hlabels (List.forall₂_take place hraws) hbefore hclash.fresh
  have hlength : (raws.take place).length = place := List.length_take_of_le (Nat.le_of_lt hraw)
  have htext : Line.ofText raws[place] = .ok (.label name) := by
    rw [← hline]
    exact hraws.get hraw hplace
  have hcut : raws = raws.take place ++ raws[place] :: raws.drop (place + 1) := by
    rw [← List.drop_eq_getElem_cons hraw, List.take_append_drop]
  rw [hcut, ofLines_append, hread, hlength]
  simp only [Except.bind, ofLines, htext, define,
    Table.get?_append_of_some hclash.bound (labelsFrom index (lines.take place))]
  rfl

theorem fresh_iff_disjoint (hq : q.labels = labelsFrom 0 q.lines) :
    Fresh p.labels q.lines ↔ ∀ name ∈ p.labels.names, name ∉ q.labels.names := by
  rw [hq]
  constructor
  · intro hfresh name hname hdefined
    exact Table.get?_eq_none_iff.mp (hfresh name (label_mem_iff.mp hdefined)) hname
  · intro hdisjoint name hline
    exact Table.get?_eq_none_iff.mpr fun hname =>
      hdisjoint name hname (label_mem_iff.mpr hline)

/-- Behind a source that can be read, the lines of another one are read with its labels. -/
theorem ofSource_append_of_ok {s : Text} (hp : ofSource s = .ok p) (t : Text) :
    ofSource (s ++ '\n' :: t) =
      (ofLines p.size p.labels t.lines).map fun q => { q with lines := p.lines ++ q.lines } := by
  obtain ⟨hraws, -, -⟩ := ofSource_eq_ok_iff.mp hp
  have hsize : 0 + s.lines.length = p.size := by
    rw [Nat.zero_add, hraws.length_eq, size]
  have hp' : ofLines 0 [] s.lines = .ok p := hp
  rw [ofSource, Text.lines_append, ofLines_append, hp', hsize]
  rfl

/-- The labels of a program that was read, moved behind another one. -/
theorem labelsFrom_of_ok {t : Text} (hq : ofSource t = .ok q) (offset : Nat) :
    labelsFrom offset q.lines = q.labels.map fun entry => (entry.1, offset + entry.2) := by
  obtain ⟨-, hlabels, -⟩ := ofSource_eq_ok_iff.mp hq
  rw [hlabels, ← labelsFrom_add, Nat.add_zero]

/-- **Reading goes line by line.**  Two sources with a newline between them are read as
their programs one behind the other, if these define no label in common; otherwise the
first line of the second source that repeats a label of the first is reported, with the
line that has the label there.  If the first source cannot be read, then both together
cannot be read for the same reason, whatever comes second. -/
theorem ofSource_append (s t : Text) :
    (∀ p q, ofSource s = .ok p → ofSource t = .ok q →
      ((∀ name ∈ p.labels.names, name ∉ q.labels.names) →
        ofSource (s ++ '\n' :: t) = .ok (p.append q) ∧
          ∀ place line, q.lines[place]? = some line →
            (p.append q).lines[p.size + place]? = some line) ∧
      ((∃ name ∈ p.labels.names, name ∈ q.labels.names) →
        ∃ (place target : Nat) (name : Text), q.lines[place]? = some (.label name) ∧
          p.lines[target]? = some (.label name) ∧
          (∀ k other, k < place → q.lines[k]? = some (.label other) →
            other ∉ p.labels.names) ∧
          ofSource (s ++ '\n' :: t) =
            .error (.parse (.duplicateLabel name target (p.size + place : Nat))))) ∧
    (∀ e, ofSource s = .error e → ofSource (s ++ '\n' :: t) = .error e) := by
  constructor
  · intro p q hp hq
    obtain ⟨-, -, hnodup⟩ := ofSource_eq_ok_iff.mp hp
    obtain ⟨hraws, hlabels, hnodup'⟩ := ofSource_eq_ok_iff.mp hq
    have hlines : (labelsFrom p.size q.lines).names.Nodup := by
      rw [names_labelsFrom, ← names_labelsFrom 0, ← hlabels]
      exact hnodup'
    rw [ofSource_append_of_ok hp]
    constructor
    · intro hdisjoint
      have hfresh := (fresh_iff_disjoint hlabels).mpr hdisjoint
      rw [ofLines_of_fresh hnodup hraws hlines hfresh, labelsFrom_of_ok hq]
      refine ⟨rfl, ?_⟩
      intro place line hline
      rw [append, size, List.getElem?_append_right (Nat.le_add_right _ _),
        Nat.add_sub_cancel_left]
      exact hline
    · rintro ⟨shared, hshared, hshared'⟩
      rcases fresh_or_clash p.labels q.lines with hfresh | ⟨place, name, target, hclash⟩
      · exact absurd hshared' ((fresh_iff_disjoint hlabels).mp hfresh shared hshared)
      · refine ⟨place, target, name, hclash.line, (get?_labels_iff hp).mp hclash.bound, ?_, ?_⟩
        · intro k other hk hother
          apply Table.get?_eq_none_iff.mp
          apply hclash.fresh
          rw [← List.getElem?_take_of_lt hk] at hother
          exact List.mem_of_getElem? hother
        · rw [ofLines_of_clash hnodup hraws hlines hclash]
          rfl
  · intro e he
    have he' : ofLines 0 [] s.lines = .error e := he
    rw [ofSource, Text.lines_append, ofLines_append, he']
    rfl

/-- A quote that is left open before the cut, labels that are repeated behind it, and a
source that cannot be read on its own. -/
theorem ofSource_append_clash :
    ∃ p q q', ofSource "b:\nmsg 'x ;\na:".toList = .ok p ∧
      ofSource "c: ; it's\nd:".toList = .ok q ∧ ofSource "c:\na:\nb:".toList = .ok q' ∧
      ofSource "b:\nmsg 'x ;\na:\nc: ; it's\nd:".toList = .ok (p.append q) ∧
      (p.append q).labels = [(['b'], 0), (['a'], 2), (['c'], 3), (['d'], 4)] ∧
      (∃ (place target : Nat) (name : Text), place = 1 ∧ target = 2 ∧ name = ['a'] ∧
        q'.lines[place]? = some (.label name) ∧ p.lines[target]? = some (.label name) ∧
        ofSource "b:\nmsg 'x ;\na:\nc:\na:\nb:".toList =
          .error (.parse (.duplicateLabel name target (p.size + place : Nat)))) ∧
      ofSource "b:\n b:\nc:".toList = .error (.parse (.duplicateLabel ['b'] 0 1)) := by
  obtain ⟨p, hp⟩ : ∃ p, p =
      ({ lines :=
          [.label ['b'],
            .instruction { opcode := .msg, operands := [.text "x ;".toList],
                           token := "msg".toList, text := "msg 'x ;".toList },
            .label ['a']]
         labels := [(['b'], 0), (['a'], 2)] } : Program) := ⟨_, rfl⟩
  obtain ⟨q, hq⟩ : ∃ q, q =
      ({ lines := [.label ['c'], .label ['d']]
         labels := [(['c'], 0), (['d'], 1)] } : Program) := ⟨_, rfl⟩
  obtain ⟨q', hq'⟩ : ∃ q', q' =
      ({ lines := [.label ['c'], .label ['a'], .label ['b']]
         labels := [(['c'], 0), (['a'], 1), (['b'], 2)] } : Program) := ⟨_, rfl⟩
  have hfirst : ofSource "b:\nmsg 'x ;\na:".toList = .ok p := by
    subst hp
    decide +kernel
  have hsecond : ofSource "c: ; it's\nd:".toList = .ok q := by
    subst hq
    decide +kernel
  have hthird : ofSource "c:\na:\nb:".toList = .ok q' := by
    subst hq'
    decide +kernel
  have hdisjoint : ∀ name ∈ p.labels.names, name ∉ q.labels.names := by
    subst hp hq
    decide +kernel
  have hshared : ∃ name ∈ p.labels.names, name ∈ q'.labels.names := by
    subst hp hq'
    decide +kernel
  have hreported : ofSource "b:\nmsg 'x ;\na:\nc:\na:\nb:".toList =
      .error (.parse (.duplicateLabel ['a'] 2 4)) := by
    decide +kernel
  obtain ⟨htogether, -⟩ := ((ofSource_append _ _).1 p q hfirst hsecond).1 hdisjoint
  obtain ⟨place, target, name, hline, hbound, -, hclash⟩ :=
    ((ofSource_append _ _).1 p q' hfirst hthird).2 hshared
  have hsame := hreported.symm.trans hclash
  simp only [Except.error.injEq, LoadError.parse.injEq, ParseError.duplicateLabel.injEq] at hsame
  obtain ⟨hname, htarget, hplace⟩ := hsame
  have hsize : p.size = 3 := by
    rw [hp]
    rfl
  refine ⟨p, q, q', hfirst, hsecond, hthird, htogether, ?_,
    ⟨place, target, name, by omega, by omega, hname.symm, hline, hbound, hclash⟩, ?_⟩
  · subst hp hq
    rfl
  · exact (ofSource_append "b:\n b:".toList "c:".toList).2 _ (by decide +kernel)

end Program
end RegisterMachine
