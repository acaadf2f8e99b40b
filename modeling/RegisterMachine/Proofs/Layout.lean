import RegisterMachine.Proofs.Decoding

/-!
# The layout of a program

A program that was read from a source keeps its lines in order, and its label
table lists the label lines with their indices.

**Contents.**
* `Program.labelsFrom`: the label table of lines, counted from an index on.
* `Program.LaidOut`: what execution relies on.

**Results.**
* `Program.ofSource_eq_ok_iff`: a source is a program exactly when each of its lines
  can be read and no label is defined twice.
* `Program.laidOut_ofSource`: every instruction of a program that was read is
  decoded, and every label leads to a line of its own.
-/

namespace RegisterMachine
namespace Text

/-- A line has no newline. -/
theorem newline_not_mem {t line : Text} (h : line ∈ lines t) : '\n' ∉ line := by
  unfold lines at h
  induction t generalizing line with
  | nil =>
      simp only [List.splitOn_nil, List.mem_singleton] at h
      simp [h]
  | cons c cs ih =>
      rw [List.splitOn_cons_eq_if_modifyHead] at h
      split at h
      · rcases List.mem_cons.mp h with rfl | h
        · simp
        · exact ih h
      · rename_i hc
        cases hpieces : cs.splitOn '\n' with
        | nil =>
            simp [hpieces] at h
        | cons first rest =>
            rw [hpieces] at h ih
            rcases List.mem_cons.mp h with rfl | h
            · have hfirst := ih List.mem_cons_self
              intro hmem
              rcases List.mem_cons.mp hmem with heq | hmem
              · exact hc (beq_iff_eq.mpr heq.symm)
              · exact hfirst hmem
            · exact ih (List.mem_cons_of_mem _ h)

theorem lines_unlines {ls : List Text} (hne : ls ≠ []) (h : ∀ line ∈ ls, '\n' ∉ line) :
    lines (unlines ls) = ls :=
  List.splitOn_intercalate '\n' h hne

theorem lines_of_not_mem {t : Text} (h : '\n' ∉ t) : lines t = [t] := by
  have hlines := lines_unlines (List.cons_ne_nil t []) (by simpa using h)
  rw [unlines, List.intercalate_singleton] at hlines
  exact hlines

end Text

namespace Table

variable {α : Type}

theorem get?_eq_none_iff {t : Table α} {name : Text} : get? t name = none ↔ name ∉ names t := by
  induction t with
  | nil =>
      simp [names]
  | cons entry rest ih =>
      simp only [names] at ih
      by_cases h : entry.1 = name
      · simp [get?_cons, names, h]
      · have hne : ¬ name = entry.1 := fun heq => h heq.symm
        simp [get?_cons, names, h, hne, ih]

theorem mem_of_get?_eq_some {t : Table α} {name : Text} {value : α}
    (h : get? t name = some value) : (name, value) ∈ t := by
  induction t with
  | nil =>
      simp at h
  | cons entry rest ih =>
      rw [get?_cons] at h
      by_cases hname : entry.1 = name
      · rw [if_pos hname, Option.some.injEq] at h
        rw [← hname, ← h]
        exact List.mem_cons_self
      · rw [if_neg hname] at h
        exact List.mem_cons_of_mem _ (ih h)

/-- In a table that binds each name once, every entry is found. -/
theorem get?_of_mem {t : Table α} {name : Text} {value : α} (hnodup : (names t).Nodup)
    (h : (name, value) ∈ t) : get? t name = some value := by
  induction t with
  | nil =>
      simp at h
  | cons entry rest ih =>
      simp only [names, List.map_cons, List.nodup_cons] at hnodup
      rw [get?_cons]
      rcases List.mem_cons.mp h with rfl | h
      · simp
      · have hname : name ∈ rest.map Prod.fst := List.mem_map_of_mem h
        have hne : ¬ entry.1 = name := fun heq => hnodup.1 (heq ▸ hname)
        rw [if_neg hne]
        exact ih hnodup.2 h

theorem nodup_names_concat {t : Table α} {name : Text} {value : α} :
    (names (t ++ [(name, value)])).Nodup ↔ (names t).Nodup ∧ name ∉ names t := by
  have hnames : names (t ++ [(name, value)]) = names t ++ [name] := by
    simp [names]
  rw [hnames, List.nodup_append]
  constructor
  · rintro ⟨ht, -, hdisjoint⟩
    exact ⟨ht, fun hmem => hdisjoint name hmem name List.mem_cons_self rfl⟩
  · rintro ⟨ht, hmem⟩
    refine ⟨ht, by simp, ?_⟩
    rintro a ha b hb rfl
    rw [List.mem_singleton.mp hb] at ha
    exact hmem ha

end Table

namespace Program

/-- The label table of lines, the first of which has the given index. -/
def labelsFrom (index : Nat) : List Line → Table Nat
  | [] => []
  | .label name :: lines => (name, index) :: labelsFrom (index + 1) lines
  | _ :: lines => labelsFrom (index + 1) lines

theorem labelsFrom_append (index : Nat) (first second : List Line) :
    labelsFrom index (first ++ second) =
      labelsFrom index first ++ labelsFrom (index + first.length) second := by
  induction first generalizing index with
  | nil =>
      rfl
  | cons line first ih =>
      have hindex : index + (first.length + 1) = index + 1 + first.length := by omega
      cases line <;> simp [labelsFrom, ih, hindex]

theorem names_labelsFrom (index : Nat) (lines : List Line) :
    (labelsFrom index lines).names = lines.filterMap Line.label? := by
  induction lines generalizing index with
  | nil =>
      rfl
  | cons line lines ih =>
      cases line with
      | label name =>
          rw [List.filterMap_cons, ← ih (index + 1)]
          rfl
      | _ => exact ih (index + 1)

theorem mem_labelsFrom {index target : Nat} {name : Text} {lines : List Line} :
    (name, target) ∈ labelsFrom index lines ↔
      ∃ k, lines[k]? = some (.label name) ∧ target = index + k := by
  induction lines generalizing index with
  | nil =>
      simp [labelsFrom]
  | cons line lines ih =>
      have hshift : (name, target) ∈ labelsFrom (index + 1) lines ↔
          ∃ k, (line :: lines)[k + 1]? = some (.label name) ∧ target = index + (k + 1) := by
        rw [ih]
        simp only [List.getElem?_cons_succ]
        constructor
        · rintro ⟨k, hk, htarget⟩
          exact ⟨k, hk, by omega⟩
        · rintro ⟨k, hk, htarget⟩
          exact ⟨k, hk, by omega⟩
      constructor
      · intro h
        cases line with
        | label other =>
            rcases List.mem_cons.mp h with heq | h
            · cases heq
              exact ⟨0, rfl, rfl⟩
            · obtain ⟨k, hk, htarget⟩ := hshift.mp h
              exact ⟨k + 1, hk, htarget⟩
        | _ =>
            obtain ⟨k, hk, htarget⟩ := hshift.mp h
            exact ⟨k + 1, hk, htarget⟩
      · rintro ⟨k, hk, htarget⟩
        cases k with
        | zero =>
            simp only [List.getElem?_cons_zero, Option.some.injEq] at hk
            subst hk htarget
            exact List.mem_cons_self
        | succ k =>
            have htail := hshift.mpr ⟨k, hk, htarget⟩
            cases line with
            | label other => exact List.mem_cons_of_mem _ htail
            | _ => exact htail

theorem define_eq_ok_iff {index : Nat} {labels defined : Table Nat} {line : Line}
    (hnodup : labels.names.Nodup) :
    define index labels line = .ok defined ↔
      defined = labels ++ labelsFrom index [line] ∧ defined.names.Nodup := by
  cases line with
  | label name =>
      cases hname : labels.get? name with
      | some first =>
          have hmem : ¬ name ∉ labels.names := by
            rw [← Table.get?_eq_none_iff, hname]
            simp
          simp only [define, hname, reduceCtorEq, labelsFrom, false_iff, not_and]
          rintro rfl hdefined
          exact hmem (Table.nodup_names_concat.mp hdefined).2
      | none =>
          have hmem : name ∉ labels.names := Table.get?_eq_none_iff.mp hname
          simp only [define, hname, Except.ok.injEq, labelsFrom]
          constructor
          · rintro rfl
            exact ⟨rfl, Table.nodup_names_concat.mpr ⟨hnodup, hmem⟩⟩
          · rintro ⟨rfl, -⟩
            rfl
  | _ =>
      simp only [define, Except.ok.injEq, labelsFrom, List.append_nil]
      constructor
      · rintro rfl
        exact ⟨rfl, hnodup⟩
      · rintro ⟨rfl, -⟩
        rfl

theorem ofLines_cons_eq_ok_iff {index : Nat} {labels : Table Nat} {raw : Text}
    {rest : List Text} {p : Program} (hnodup : labels.names.Nodup) :
    ofLines index labels (raw :: rest) = .ok p ↔
      ∃ line tail, Line.ofText raw = .ok line ∧
        (labels ++ labelsFrom index [line]).names.Nodup ∧
        ofLines (index + 1) (labels ++ labelsFrom index [line]) rest = .ok tail ∧
        p = { tail with lines := line :: tail.lines } := by
  cases hline : Line.ofText raw with
  | error e =>
      simp [ofLines, hline]
  | ok line =>
      cases hdefine : define index labels line with
      | error e =>
          simp only [ofLines, hline, hdefine, reduceCtorEq, Except.ok.injEq, false_iff]
          rintro ⟨_, tail, rfl, hdefined, -⟩
          have hok := (define_eq_ok_iff hnodup).mpr ⟨rfl, hdefined⟩
          rw [hdefine] at hok
          cases hok
      | ok defined =>
          obtain ⟨rfl, hdefined⟩ := (define_eq_ok_iff hnodup).mp hdefine
          simp only [ofLines, hline, hdefine, Result.map_eq_ok, Except.ok.injEq]
          constructor
          · rintro ⟨tail, htail, rfl⟩
            exact ⟨line, tail, rfl, hdefined, htail, rfl⟩
          · rintro ⟨_, tail, rfl, -, htail, rfl⟩
            exact ⟨tail, htail, rfl⟩

/-- Lines are read exactly when each of them can be and no label is defined twice. -/
theorem ofLines_eq_ok_iff {index : Nat} {labels : Table Nat} {raws : List Text} {p : Program}
    (hnodup : labels.names.Nodup) :
    ofLines index labels raws = .ok p ↔
      List.Forall₂ (fun raw line => Line.ofText raw = .ok line) raws p.lines ∧
        p.labels = labels ++ labelsFrom index p.lines ∧ p.labels.names.Nodup := by
  induction raws generalizing index labels p with
  | nil =>
      simp only [ofLines, Except.ok.injEq, List.forall₂_nil_left_iff]
      constructor
      · rintro rfl
        simpa [labelsFrom] using hnodup
      · rintro ⟨hlines, hlabels, -⟩
        rw [hlines] at hlabels
        cases p
        simp_all [labelsFrom]
  | cons raw rest ih =>
      rw [ofLines_cons_eq_ok_iff hnodup, List.forall₂_cons_left_iff]
      constructor
      · rintro ⟨line, tail, hline, hdefined, htail, rfl⟩
        obtain ⟨hlines, hlabels, htable⟩ := (ih hdefined).mp htail
        refine ⟨⟨line, tail.lines, hline, hlines, rfl⟩, ?_, htable⟩
        show tail.labels = labels ++ labelsFrom index ([line] ++ tail.lines)
        rw [labelsFrom_append, ← List.append_assoc]
        exact hlabels
      · rintro ⟨⟨line, lines, hline, hlines, hcons⟩, hlabels, htable⟩
        have hlabels' : p.labels =
            labels ++ labelsFrom index [line] ++ labelsFrom (index + 1) lines := by
          rw [hlabels, hcons, ← List.singleton_append, labelsFrom_append, List.append_assoc]
          rfl
        have hdefined : (labels ++ labelsFrom index [line]).names.Nodup := by
          rw [hlabels', Table.names, List.map_append] at htable
          exact (List.nodup_append.mp htable).1
        refine ⟨line, { lines, labels := p.labels }, hline, hdefined, ?_, ?_⟩
        · exact (ih hdefined).mpr ⟨hlines, hlabels', htable⟩
        · rw [← hcons]

/-- The lines of a whole source are read without labels known before. -/
theorem ofLines_start_eq_ok_iff {raws : List Text} {p : Program} :
    ofLines 0 [] raws = .ok p ↔
      List.Forall₂ (fun raw line => Line.ofText raw = .ok line) raws p.lines ∧
        p.labels = labelsFrom 0 p.lines ∧ p.labels.names.Nodup :=
  @ofLines_eq_ok_iff 0 [] raws p List.nodup_nil

/-- **A source is a program** exactly when each of its lines can be read and no label is
defined twice. -/
theorem ofSource_eq_ok_iff {source : Text} {p : Program} :
    ofSource source = .ok p ↔
      List.Forall₂ (fun raw line => Line.ofText raw = .ok line) source.lines p.lines ∧
        p.labels = labelsFrom 0 p.lines ∧ p.labels.names.Nodup :=
  ofLines_start_eq_ok_iff

theorem get?_labels_iff {source : Text} {p : Program} (h : ofSource source = .ok p)
    {name : Text} {index : Nat} :
    p.labels.get? name = some index ↔ p.lines[index]? = some (.label name) := by
  obtain ⟨-, hlabels, hnodup⟩ := ofSource_eq_ok_iff.mp h
  have hmem : (name, index) ∈ p.labels ↔ p.lines[index]? = some (.label name) := by
    rw [hlabels, mem_labelsFrom]
    simp
  constructor
  · intro hfound
    exact hmem.mp (Table.mem_of_get?_eq_some hfound)
  · intro hline
    exact Table.get?_of_mem hnodup (hmem.mpr hline)

/-- What the execution of a program relies on. -/
structure LaidOut (p : Program) : Prop where
  /-- Every instruction is decoded. -/
  decoded : ∀ pc i, p.instructionAt? pc = some i → i.Decoded
  /-- Every label leads to the line that defines it. -/
  labelled : ∀ name index, p.labels.get? name = some index →
    p.lines[index]? = some (.label name)

theorem mem_of_instructionAt? {p : Program} {pc : Int} {i : Instruction}
    (h : p.instructionAt? pc = some i) : .instruction i ∈ p.lines := by
  obtain ⟨line, hline, hi⟩ := Option.bind_eq_some_iff.mp h
  cases line with
  | instruction j =>
      cases hi
      exact List.mem_of_getElem? hline
  | _ => cases hi

end Program

namespace Line

theorem decoded_of_ofText {raw : Text} {i : Instruction}
    (h : ofText raw = .ok (.instruction i)) : i.Decoded := by
  unfold ofText ofStripped at h
  split at h
  · cases h
  · split at h
    · cases h
    · obtain ⟨j, hj, heq⟩ := Result.map_eq_ok.mp h
      cases heq
      exact Instruction.decoded_ofText hj

end Line

namespace Program

/-- **Every program that was read is laid out.** -/
theorem laidOut_ofSource {source : Text} {p : Program} (h : ofSource source = .ok p) :
    p.LaidOut := by
  refine ⟨?_, fun name index => (get?_labels_iff h).mp⟩
  intro pc i hi
  obtain ⟨hlines, -, -⟩ := ofSource_eq_ok_iff.mp h
  obtain ⟨raw, hraw⟩ := Result.exists_of_forall₂ hlines (mem_of_instructionAt? hi)
  exact Line.decoded_of_ofText hraw

end Program
end RegisterMachine
