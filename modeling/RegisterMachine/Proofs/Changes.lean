import Mathlib.Data.List.Nodup
import RegisterMachine.Playground.Panes
import RegisterMachine.Proofs.Chronicle
import RegisterMachine.Proofs.Frame
import RegisterMachine.Report.Trace

/-!
# The changes of a trace

The trace report and the playground both tell which registers an instruction changed, and
each compares the registers before and after it in its own way.  They tell the same: an
instruction stores at most one value, and it is told of unless the register already held it.

**Contents.**
* `Opcode.stores`, `Instruction.stored?`: the operations that store a value, and the value.
* `Change.apply`: a change, made to a table of registers.
* `Report.begins`: whether a line begins with a word.
* `Run.Truthful`: the trace of a run tells of its instructions, and names each register once.

**Results.**
* `Table.filterMap_ordered_put`: what is found in a table when one name is bound.
* `Report.changes_eq`: the report and the playground tell of the same changes.
* `Report.filter_trace`, `Playground.filter_traceLines`: the lines in which each of them does.
* `Instruction.Decoded.stored_of_performs`: which value is stored, and where.
* `Entry.changes_of_put`: the change of an entry that stores a value.
* `Run.Truthful.next`: a step keeps a run truthful, whether it is recorded or not.
* `Playground.reachable_view`: the trace that the playground shows is that of a session.
* `Session.Reachable.changes_exact`: the changes of every entry in the trace of a session.
-/

namespace RegisterMachine

/-- A list with one member that matters gives what that member gives. -/
theorem filterMap_eq_toList {α β : Type} {f : α → Option β} {l : List α} {a : α}
    (hnodup : l.Nodup) (ha : a ∈ l) (hothers : ∀ b ∈ l, b ≠ a → f b = none) :
    l.filterMap f = (f a).toList := by
  obtain ⟨before, after, rfl⟩ := List.append_of_mem ha
  have hnone : ∀ part, part ⊆ before ++ a :: after → a ∉ part → part.filterMap f = [] := by
    intro part hpart hmem
    rw [List.filterMap_eq_nil_iff]
    intro b hb
    exact hothers b (hpart hb) (fun heq => hmem (heq ▸ hb))
  rw [List.nodup_middle, List.nodup_cons, List.mem_append, not_or] at hnodup
  obtain ⟨⟨hbefore, hafter⟩, -⟩ := hnodup
  rw [List.filterMap_append, List.filterMap_cons,
    hnone before (List.subset_append_left _ _) hbefore, List.nil_append,
    hnone after (fun b hb => List.mem_append_right _ (List.mem_cons_of_mem _ hb)) hafter]
  cases f a <;> rfl

namespace Table

variable {α : Type} {t : Table α} {name : Text} {value : α}

/-- An entry is put in front of a table, or behind its first entry. -/
theorem place_cons (entry other : Text × α) (t : Table α) :
    place entry (other :: t) = entry :: other :: t ∨
      place entry (other :: t) = other :: place entry t :=
  ite_eq_or_eq _ _ _

theorem place_perm (entry : Text × α) (t : Table α) : (place entry t).Perm (entry :: t) := by
  induction t with
  | nil =>
      exact .refl _
  | cons other t ih =>
      rcases place_cons entry other t with hfirst | hlater
      · rw [hfirst]
      · rw [hlater]
        exact (ih.cons other).trans (.swap entry other t)

/-- The entries of a table stay the same when they are ordered. -/
theorem ordered_perm (t : Table α) : (ordered t).Perm t := by
  induction t with
  | nil =>
      exact .refl _
  | cons entry t ih =>
      exact (place_perm entry (ordered t)).trans (ih.cons entry)

theorem nodup_put (h : t.names.Nodup) (name : Text) (value : α) :
    (put name value t).names.Nodup := by
  rw [names_put]
  split
  · exact h
  · rename_i hmem
    rw [List.nodup_append]
    refine ⟨h, List.nodup_singleton name, ?_⟩
    intro other hother found hfound heq
    rw [heq, List.mem_singleton.mp hfound] at hother
    exact hmem hother

/-- Binding a name to the value that it has changes nothing. -/
theorem put_of_get? (h : t.get? name = some value) : t.put name value = t := by
  induction t with
  | nil =>
      cases h
  | cons entry t ih =>
      rw [get?_cons] at h
      rw [put]
      split at h
      · rename_i hname
        cases h
        rw [if_pos hname, ← hname]
      · rename_i hname
        rw [if_neg hname, ih h]

/-- **What is found in a table when one name is bound** is what its entry gives, if nothing is
found in the entries that were there before. -/
theorem filterMap_ordered_put {β : Type} {f : Text × α → Option β} (h : t.names.Nodup)
    (hothers : ∀ other found, t.get? other = some found → f (other, found) = none)
    (name : Text) (value : α) :
    (t.put name value).ordered.filterMap f = (f (name, value)).toList := by
  have hput := nodup_put h name value
  have hperm := ordered_perm (t.put name value)
  have hbound : (t.put name value).get? name = some value := by
    rw [get?_put, if_pos rfl]
  apply filterMap_eq_toList
  · exact hperm.nodup_iff.mpr (List.Nodup.of_map Prod.fst hput)
  · exact hperm.mem_iff.mpr (mem_of_get?_eq_some hbound)
  · rintro ⟨other, found⟩ hmem hne
    have hfound := get?_of_mem hput (hperm.mem_iff.mp hmem)
    rw [get?_put] at hfound
    split at hfound
    · rename_i hname
      cases hfound
      exact absurd (congrArg (·, value) hname.symm) hne
    · exact hothers other found hfound

/-- Nothing is found in a table if nothing is found in its entries. -/
theorem filterMap_ordered_eq_nil {β : Type} {f : Text × α → Option β} (h : t.names.Nodup)
    (hnone : ∀ name value, t.get? name = some value → f (name, value) = none) :
    t.ordered.filterMap f = [] := by
  rw [List.filterMap_eq_nil_iff]
  rintro ⟨name, value⟩ hmem
  exact hnone name value (get?_of_mem h ((ordered_perm t).mem_iff.mp hmem))

end Table

/-- Whether an operation stores a value in its first operand. -/
def Opcode.stores : Opcode → Bool
  | .mov | .inc | .dec | .arithmetic _ => true
  | _ => false

namespace Instruction

variable {i : Instruction} {p : Program} {m after : Machine}

/-- The value that an instruction stores. -/
def stored? (m : Machine) (i : Instruction) : Option Int :=
  match i.opcode with
  | .mov => (i.operandValue? m 1).map Word.wrap
  | .inc => (i.operandValue? m 0).map fun a => Word.wrap (a + 1)
  | .dec => (i.operandValue? m 0).map fun a => Word.wrap (a - 1)
  | .arithmetic operation => do
      let a ← i.operandValue? m 0
      let b ← i.operandValue? m 1
      (operation.apply a b).toOption.map Word.wrap
  | _ => none

theorem destination?_of_not_stores (h : i.opcode.stores = false) : i.destination? = none := by
  unfold destination?
  cases hopcode : i.opcode <;> simp_all [Opcode.stores]

namespace Decoded

/-- **Which value is stored, and where.** -/
theorem stored_of_performs (hi : i.Decoded) (h : i.action.Performs p m after)
    (hstores : i.opcode.stores = true) :
    ∃ name value, i.operands.head? = some (.register name) ∧ i.stored? m = some value ∧
      after.registers = m.registers.put name value := by
  have hform := hi.form
  generalize i.action = a at h hform
  cases hform with
  | mov hopcode hoperands hsource =>
      cases h with
      | assign hname hvalue =>
          cases hname
          refine ⟨_, _, by rw [hoperands]; rfl, ?_, rfl⟩
          simp [stored?, operandValue?, hopcode, hoperands, Machine.value?_of_eval hsource hvalue]
  | inc hopcode hoperands | dec hopcode hoperands =>
      cases h with
      | combine hname hlhs hrhs hvalue =>
          cases hname
          cases hrhs
          cases hvalue
          refine ⟨_, _, by rw [hoperands]; rfl, ?_, rfl⟩
          simp [stored?, operandValue?, hopcode, hoperands, Machine.read_eq_ok.mp hlhs]
  | arithmetic hopcode hoperands hsource =>
      cases h with
      | combine hname hlhs hrhs hvalue =>
          cases hname
          refine ⟨_, _, by rw [hoperands]; rfl, ?_, rfl⟩
          simp [stored?, operandValue?, hopcode, hoperands, Machine.read_eq_ok.mp hlhs,
            Machine.value?_of_eval hsource hrhs, hvalue, Except.toOption]
  | _ hopcode =>
      rw [hopcode] at hstores
      cases hstores

/-- An operation that stores nothing leaves the registers as they are. -/
theorem registers_of_not_stores (hi : i.Decoded) (h : i.action.Performs p m after)
    (hstores : i.opcode.stores = false) : after.registers = m.registers := by
  rcases hi.registers_of_performs h with ⟨-, hsame⟩ | ⟨name, value, hname, -⟩
  · exact hsame
  · rw [destination?_of_not_stores hstores] at hname
    cases hname

end Decoded
end Instruction

/-- A change, made to a table of registers. -/
def Change.apply (t : Table Int) (c : Change) : Table Int :=
  t.put c.name c.after

theorem Report.changeOf_eq (old : Table Int) (entry : Text × Int) :
    Report.changeOf old entry = Entry.changeOf old entry := by
  unfold Report.changeOf Entry.changeOf
  cases old.get? entry.1 <;> simp

/-- **The report and the playground tell of the same changes.** -/
theorem Report.changes_eq (e : Entry) : Report.changes e = e.changes := by
  rw [Report.changes, funext (changeOf_eq e.before.registers)]
  rfl

/-! ### The lines that tell of changes -/

namespace Report

/-- Whether a line begins with a word. -/
def begins (word line : String) : Bool :=
  word.toList.isPrefixOf line.toList

variable {word front : String} {lines : List String}

theorem begins_append (word rest : String) : begins word (word ++ rest) = true := by
  simp [begins]

/-- A line that begins with one of two words does not begin with the other, if neither of the
words begins with the other. -/
theorem begins_append_of_ne (h : begins word front = false) (h' : begins front word = false)
    (rest : String) : begins word (front ++ rest) = false := by
  rw [begins, Bool.eq_false_iff, ne_eq, List.isPrefixOf_iff_prefix] at h h' ⊢
  rw [String.toList_append]
  intro hprefix
  rcases List.prefix_or_prefix_of_prefix hprefix (List.prefix_append _ _) with hword | hfront
  · exact h hword
  · exact h' hfront

theorem filter_begins_eq_nil (h : ∀ line ∈ lines, begins word line = false) :
    lines.filter (begins word) = [] := by
  rw [List.filter_eq_nil_iff]
  intro line hline
  rw [h line hline]
  exact Bool.false_ne_true

theorem filter_changeLine (e : Entry) :
    (changeLine e).filter (begins "  Changes: ") = changeLine e := by
  rw [List.filter_eq_self, changeLine]
  split
  · simp
  · simp [begins_append]

/-- Of the lines about an entry, only the one about changes begins with their word. -/
theorem filter_entry (e : Entry) :
    (entry e).filter (begins "  Changes: ") = changeLine e := by
  have hjump : (jumpLine e).filter (begins "  Changes: ") = [] := by
    unfold jumpLine
    split
    · rfl
    · apply filter_begins_eq_nil
      simp only [List.forall_mem_singleton, String.append_assoc]
      exact begins_append_of_ne (by decide) (by decide) _
  rw [entry, List.filter_append, List.filter_append, filter_changeLine, hjump, List.append_nil,
    filter_begins_eq_nil, List.nil_append]
  simp only [List.forall_mem_cons, String.append_assoc]
  refine ⟨by decide, ?_, ?_, ?_, by simp⟩
  all_goals exact begins_append_of_ne (by decide) (by decide) _

/-- **The lines of the report that tell of changes** are those about its entries, one for each
entry that has changes. -/
theorem filter_trace (s : Session) :
    (trace s).filter (begins "  Changes: ") = s.trace.flatMap changeLine := by
  have htitle : ∀ words, begins "  Changes: " words = false →
      (title words).filter (begins "  Changes: ") = [] := by
    intro words hwords
    apply filter_begins_eq_nil
    simp only [title, List.forall_mem_cons]
    exact ⟨by decide, hwords, by decide, by simp⟩
  have hstate : ((s.current.map fun r => finalState r.machine).getD []).filter
      (begins "  Changes: ") = [] := by
    cases s.current with
    | none =>
        rfl
    | some r =>
        apply filter_begins_eq_nil
        simp only [Option.map_some, Option.getD_some, finalState, List.forall_mem_cons]
        refine ⟨?_, ?_, ?_, ?_, by simp⟩
        all_goals exact begins_append_of_ne (by decide) (by decide) _
  rw [trace, List.filter_append, List.filter_append, List.filter_append, List.filter_cons_of_neg,
    htitle, htitle, hstate, List.filter_flatMap, funext filter_entry, List.nil_append,
    List.append_nil, List.append_nil]
  all_goals decide

end Report

/-- The lines of the playground about an entry: only the one about changes begins with their
word. -/
theorem Playground.filter_entryLines (e : Entry) :
    (entryLines e).filter (Report.begins "Changes:     ") = changeLines e := by
  have hchange : (changeLines e).filter (Report.begins "Changes:     ") = changeLines e := by
    rw [List.filter_eq_self, changeLines]
    split
    · simp
    · simp [Report.begins_append]
  have hfailure : (failureLines e).filter (Report.begins "Changes:     ") = [] := by
    apply Report.filter_begins_eq_nil
    cases hfailure : e.failure with
    | none =>
        simp [failureLines, hfailure]
    | some failure =>
        simp only [failureLines, hfailure, Option.map_some, Option.getD_some,
          List.forall_mem_singleton]
        exact Report.begins_append_of_ne (by decide) (by decide) _
  rw [entryLines, List.filter_append, List.filter_append, hchange, hfailure, List.append_nil,
    Report.filter_begins_eq_nil, List.nil_append]
  simp only [List.forall_mem_cons, String.append_assoc]
  refine ⟨by decide, ?_, ?_, ?_, by simp⟩
  all_goals exact Report.begins_append_of_ne (by decide) (by decide) _

/-- **The lines of the trace pane that tell of changes** are those about the entries that it
shows. -/
theorem Playground.filter_traceLines (trace : List Entry) :
    (traceLines trace).filter (Report.begins "Changes:     ") =
      (trace.take traceLimit).flatMap changeLines := by
  have homitted : (omittedLines trace.length).filter (Report.begins "Changes:     ") = [] := by
    unfold omittedLines
    split
    · apply Report.filter_begins_eq_nil
      simp only [List.forall_mem_cons, String.append_assoc]
      exact ⟨by decide, Report.begins_append_of_ne (by decide) (by decide) _, by simp⟩
    · rfl
  rw [traceLines, List.filter_append, List.filter_append, List.filter_flatMap,
    funext filter_entryLines, homitted, List.append_nil, Report.filter_begins_eq_nil,
    List.nil_append]
  simp only [List.forall_mem_cons]
  exact ⟨by decide, by decide, by simp⟩

namespace Entry

variable {e : Entry} {p : Program} {name : Text} {value : Int}

theorem changeOf_of_get? {old : Table Int} (h : old.get? name = some value) :
    changeOf old (name, value) = none :=
  if_pos h

/-- The registers of an entry that changes none. -/
theorem changes_of_same (hdistinct : e.before.registers.names.Nodup)
    (h : e.after.registers = e.before.registers) : e.changes = [] := by
  rw [changes, h]
  exact Table.filterMap_ordered_eq_nil hdistinct fun _ _ => changeOf_of_get?

/-- **The change of an entry that stores a value**, unless the register held it already. -/
theorem changes_of_put (hdistinct : e.before.registers.names.Nodup)
    (h : e.after.registers = e.before.registers.put name value) :
    e.changes =
      if e.before.registers.get? name = some value then []
      else [{ name, before := e.before.registers.get? name, after := value }] := by
  rw [changes, h, Table.filterMap_ordered_put hdistinct fun _ _ => changeOf_of_get?]
  unfold changeOf
  split <;> rfl

/-- An entry that fails, or whose operation stores nothing, leaves the registers as they are. -/
theorem Faithful.registers_eq (h : e.Faithful p) (hi : e.instruction.Decoded)
    (hnone : e.failure ≠ none ∨ e.instruction.opcode.stores = false) :
    e.after.registers = e.before.registers := by
  have hexecutes := h.executes
  rcases e.instruction.execute_cases p e.before with ⟨after, hperforms, heq⟩ | hfails
  · rw [hexecutes, Attempt.mk.injEq, Option.map_eq_none_iff] at heq
    obtain ⟨hafter, hfailure⟩ := heq
    rw [hafter]
    show after.registers = e.before.registers
    exact hi.registers_of_not_stores hperforms (hnone.resolve_left fun hne => hne hfailure)
  · rw [hexecutes] at hfails
    exact hfails.registers_eq

/-- An entry that succeeds stores what its instruction is about to store. -/
theorem Faithful.stored (h : e.Faithful p) (hi : e.instruction.Decoded)
    (hfailure : e.failure = none) (hstores : e.instruction.opcode.stores = true) :
    ∃ name value, e.instruction.operands.head? = some (.register name) ∧
      e.instruction.stored? e.before = some value ∧
      e.after.registers = e.before.registers.put name value := by
  have hexecutes := h.executes
  rcases e.instruction.execute_cases p e.before with ⟨after, hperforms, heq⟩ | hfails
  · rw [hexecutes, Attempt.mk.injEq] at heq
    have hstored := hi.stored_of_performs hperforms hstores
    rw [heq.1]
    exact hstored
  · rw [hexecutes, hfailure] at hfails
    exact absurd rfl hfails.fault_ne_none

end Entry

namespace Run

variable {r : Run}

/-- The trace of a run tells of its instructions, and each register has one name. -/
structure Truthful (r : Run) : Prop where
  distinct : r.machine.registers.names.Nodup
  entries : ∀ e ∈ r.history, e.Faithful r.program ∧ e.before.registers.names.Nodup

namespace Truthful

theorem initial (p : Program) : (start p).Truthful where
  distinct := List.nodup_nil
  entries := by simp [start]

/-- An attempt at an instruction is recorded with the registers that it is made on. -/
theorem recorded (h : r.Truthful) {i : Instruction}
    (hi : r.program.instructionAt? r.ready.pc = some i) (recording : Bool) :
    ∀ e ∈ r.recorded recording i,
      e.Faithful r.program ∧ e.before.registers.names.Nodup := by
  cases recording with
  | false =>
      exact h.entries
  | true =>
      exact List.forall_mem_cons.mpr ⟨⟨Entry.faithful_entryOf hi, h.distinct⟩, h.entries⟩

/-- **A step keeps a run truthful**, whether it is recorded or not. -/
theorem next (h : r.Truthful) (hsound : r.Sound) (limit : Option Int) (recording : Bool) :
    (r.next limit recording).Truthful := by
  cases hover : r.isOver with
  | true =>
      rw [next_of_isOver hover]
      exact h
  | false =>
      have hmoves := moves_next hover limit recording
      generalize r.next limit recording = after at hmoves
      cases hmoves with
      | ranOff _ =>
          exact ⟨h.distinct, h.entries⟩
      | exhausted _ _ =>
          exact ⟨h.distinct, h.entries⟩
      | @executed i after hi _ hperforms =>
          refine ⟨?_, h.recorded hi recording⟩
          show after.registers.names.Nodup
          have hdecoded := hsound.laidOut.decoded _ _ hi
          rcases hdecoded.registers_of_performs hperforms with ⟨-, hsame⟩ | ⟨name, value, -, hput⟩
          · rw [hsame]
            exact h.distinct
          · rw [hput]
            exact Table.nodup_put h.distinct name value
      | failed hi _ hfails _ =>
          refine ⟨?_, h.recorded hi recording⟩
          rw [hfails.registers_eq]
          exact h.distinct

end Truthful
end Run

theorem Program.LaidOut.truthful_course {p : Program} (h : p.LaidOut) (s : Schedule) (n : Nat) :
    (p.course s n).Truthful := by
  induction n with
  | zero =>
      exact .initial p
  | succ n ih =>
      rw [course_succ]
      exact ih.next (h.sound_course s n) _ _

/-- The session whose trace the playground shows. -/
theorem Playground.reachable_view {source : Text} {p : Program}
    (h : Program.ofSource source = .ok p) (most : Int) :
    Session.Reachable
      { limit := some most, recording := true, current := some (p.runWithin most true) } :=
  ((Session.Reachable.fresh (some most) true).next (.install _ h)).next
    (@Session.Becomes.run _ _ none 0 rfl)

/-- Every entry in the trace of a session tells of an instruction of a program that was read. -/
theorem Session.Reachable.faithful_of_mem_trace {s : Session} (h : s.Reachable) {e : Entry}
    (he : e ∈ s.trace) :
    ∃ p, e.Faithful p ∧ e.instruction.Decoded ∧ e.before.registers.names.Nodup := by
  unfold trace at he
  cases hcurrent : s.current with
  | none =>
      simp [hcurrent] at he
  | some r =>
      rw [hcurrent] at he
      obtain ⟨source, p, schedule, n, hp, rfl⟩ := h.exists_course hcurrent
      have hlaidOut := Program.laidOut_ofSource hp
      have hmem : e ∈ (p.course schedule n).history := List.mem_reverse.mp he
      obtain ⟨hfaithful, hdistinct⟩ := (hlaidOut.truthful_course schedule n).entries e hmem
      rw [p.program_course] at hfaithful
      exact ⟨p, hfaithful, hlaidOut.decoded _ _ hfaithful.instruction, hdistinct⟩

/-- **The changes in the trace of a session**, however it was used.  The report and the
playground tell of the same changes.  There is at most one, and none for an entry that fails
or whose operation stores nothing; otherwise it is that of the destination to the value that
is stored, and left out only if the destination held that value before.  Made to the registers
before an entry, its changes give the registers after it. -/
theorem Session.Reachable.changes_exact {s : Session} (h : s.Reachable) :
    ∀ e ∈ s.trace,
      Report.changes e = e.changes ∧
      e.changes.length ≤ 1 ∧
      (e.failure ≠ none ∨ e.instruction.opcode.stores = false → e.changes = []) ∧
      (e.failure = none → e.instruction.opcode.stores = true →
        ∃ name value, e.instruction.operands.head? = some (.register name) ∧
          e.instruction.stored? e.before = some value ∧
          e.after.registers.get? name = some value ∧
          e.changes =
            if e.before.registers.get? name = some value then []
            else [{ name, before := e.before.registers.get? name, after := value }]) ∧
      e.changes.foldl Change.apply e.before.registers = e.after.registers := by
  intro e he
  obtain ⟨p, hfaithful, hi, hdistinct⟩ := h.faithful_of_mem_trace he
  refine ⟨Report.changes_eq e, ?_⟩
  by_cases hnone : e.failure ≠ none ∨ e.instruction.opcode.stores = false
  · have hsame := hfaithful.registers_eq hi hnone
    have hchanges := Entry.changes_of_same hdistinct hsame
    rw [hchanges]
    refine ⟨Nat.zero_le 1, fun _ => rfl, ?_, hsame.symm⟩
    intro hfailure hstores
    rcases hnone with hne | hnot
    · exact absurd hfailure hne
    · rw [hstores] at hnot
      cases hnot
  · rw [not_or, not_not, Bool.not_eq_false] at hnone
    obtain ⟨name, value, hname, hvalue, hput⟩ := hfaithful.stored hi hnone.1 hnone.2
    have hchanges := Entry.changes_of_put hdistinct hput
    have hafter : e.after.registers.get? name = some value := by
      rw [hput, Table.get?_put, if_pos rfl]
    refine ⟨?_, ?_, fun _ _ => ⟨name, value, hname, hvalue, hafter, hchanges⟩, ?_⟩
    · rw [hchanges]
      split <;> simp
    · intro hnot
      exact absurd hnot (by simp [hnone])
    · rw [hchanges, hput]
      split
      · rename_i hheld
        exact (Table.put_of_get? hheld).symm
      · rfl

/-- A register that is set, set again to the value that it has, and divided by zero. -/
theorem Session.Reachable.changes_exact_held :
    ∃ s first second last, Reachable s ∧ s.trace = [first, second, last] ∧
      first.changes = [⟨['b'], none, 7⟩] ∧ Report.changes first = [⟨['b'], none, 7⟩] ∧
      second.failure = none ∧ second.instruction.stored? second.before = some 7 ∧
      second.before.registers.get? ['b'] = some 7 ∧ second.changes = [] ∧
      last.failure ≠ none ∧ last.changes = [] ∧
      last.before.registers = last.after.registers := by
  obtain ⟨p, hp⟩ : ∃ p, p =
      ({ lines :=
          [.instruction { opcode := .mov, operands := [.register ['b'], .integer 7],
                          token := "mov".toList, text := "mov b,7".toList },
            .instruction { opcode := .mov, operands := [.register ['b'], .integer 7],
                           token := "mov".toList, text := "mov b,7".toList },
            .instruction { opcode := .arithmetic .div,
                           operands := [.register ['b'], .integer 0],
                           token := "div".toList, text := "div b,0".toList }] } : Program) :=
    ⟨_, rfl⟩
  have hsource : Program.ofSource "mov b,7\nmov b,7\ndiv b,0".toList = .ok p := by
    subst hp
    decide +kernel
  have hfacts : (p.runWithin 9 true).trace.map (fun e =>
      (e.changes, e.failure.isSome, e.instruction.stored? e.before,
        e.before.registers.get? ['b'])) =
      [([⟨['b'], none, 7⟩], false, some 7, none), ([], false, some 7, some 7),
        ([], true, none, some 7)] := by
    subst hp
    decide +kernel
  have hreach := Playground.reachable_view hsource 9
  have hexact := hreach.changes_exact
  generalize hs : ({ limit := some 9, recording := true,
                     current := some (p.runWithin 9 true) } : Session) = s at hreach hexact
  have htrace : (p.runWithin 9 true).trace = s.trace := by
    rw [← hs]
    rfl
  rw [htrace] at hfacts
  obtain ⟨first, second, last, hentries⟩ :
      ∃ first second last, s.trace = [first, second, last] := by
    rw [← List.length_eq_three]
    simpa using congrArg List.length hfacts
  rw [hentries] at hfacts hexact
  simp only [List.map_cons, List.map_nil, List.cons.injEq, Prod.mk.injEq, and_true] at hfacts
  obtain ⟨⟨hfirst, -⟩, ⟨hsecond, hsucceeds, hstored, hheld⟩, -, hfails, -⟩ := hfacts
  have hnone : second.failure = none := by
    simpa using hsucceeds
  have hfailure : last.failure ≠ none := Option.isSome_iff_ne_none.mp hfails
  obtain ⟨hsame, -⟩ := hexact first (by simp)
  obtain ⟨-, -, hlast, -, happly⟩ := hexact last (by simp)
  rw [hlast (.inl hfailure)] at happly
  exact ⟨s, first, second, last, hreach, hentries, hfirst, hsame.trans hfirst, hnone, hstored,
    hheld, hsecond, hfailure, hlast (.inl hfailure), happly⟩

end RegisterMachine
