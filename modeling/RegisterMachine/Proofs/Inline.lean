import RegisterMachine.Proofs.FrontEnds

/-!
# Source given inline

A source text stands in a file, or it is given inline with every newline written as a
backslash and an `n`.  The inline form is read back to the same text unless a backslash
already stands before an `n` somewhere.  From there on it does not matter where the text
came from: only the line that announces it does.

**Contents.**
* `CommandLine.Settings.SameOptions`: settings that may differ in where the source is.
* `CommandLine.SameAnswer`: answers that may differ in how they begin.
* `CommandLine.reportLines`: what is written about a run, however it was announced.
* `CommandLine.Settings.Counterparts`: one source, asked for inline and in a file.

**Results.**
* `Text.expandBreaks_escapeBreaks`: the inline form is read back.
* `CommandLine.sameAnswer_sourceReply`: the answer to a source text, however announced.
* `CommandLine.sameAnswer_inline`: source inline and in a file is answered alike.
-/

namespace RegisterMachine
namespace Text

variable {t : Text}

/-- A character that does not begin a written newline is kept. -/
theorem expandBreaks_cons {c : Char} (h : ¬ ['\\', 'n'] <+: c :: t) :
    expandBreaks (c :: t) = c :: expandBreaks t := by
  rw [expandBreaks]
  rintro rest rfl rfl
  exact h ⟨rest, rfl⟩

theorem escapeBreaks_newline (t : Text) :
    escapeBreaks ('\n' :: t) = '\\' :: 'n' :: escapeBreaks t := by
  rfl

theorem escapeBreaks_cons {c : Char} (h : c ≠ '\n') (t : Text) :
    escapeBreaks (c :: t) = c :: escapeBreaks t := by
  simp [escapeBreaks, h]

/-- A written newline begins with a backslash, so that only an `n` is written as one. -/
theorem eq_cons_of_escapeBreaks {rest : Text} (h : escapeBreaks t = 'n' :: rest) :
    ∃ rest, t = 'n' :: rest := by
  cases t with
  | nil =>
      cases h
  | cons c t =>
      by_cases hc : c = '\n'
      · rw [hc, escapeBreaks_newline] at h
        cases h
      · rw [escapeBreaks_cons hc, List.cons.injEq] at h
        exact ⟨t, by rw [h.1]⟩

/-- **The inline form is read back** if no backslash of the text stands before an `n`. -/
theorem expandBreaks_escapeBreaks (h : ¬ ['\\', 'n'] <:+: t) :
    expandBreaks (escapeBreaks t) = t := by
  induction t with
  | nil =>
      rfl
  | cons c t ih =>
      have hrest : expandBreaks (escapeBreaks t) = t :=
        ih fun hmem => h (hmem.trans (List.infix_cons List.infix_rfl))
      by_cases hc : c = '\n'
      · rw [hc, escapeBreaks_newline, expandBreaks, hrest]
      · rw [escapeBreaks_cons hc, expandBreaks_cons, hrest]
        -- a backslash of the text and what is written next make no newline together
        rintro ⟨tail, htail⟩
        obtain ⟨rfl, hbehind⟩ := List.cons.inj htail
        obtain ⟨rest, rfl⟩ := eq_cons_of_escapeBreaks hbehind.symm
        exact h (List.IsPrefix.isInfix ⟨rest, rfl⟩)

end Text

theorem Report.printed_append (lines others : List String) :
    printed (lines ++ others) = printed lines ++ printed others := by
  simp [printed]

namespace CommandLine

/-- Settings that agree in all options but those that say where the source is. -/
structure Settings.SameOptions (s other : Settings) : Prop where
  maxCycles : s.maxCycles = other.maxCycles
  trace : s.trace = other.trace
  quiet : s.quiet = other.quiet
  verbose : s.verbose = other.verbose

/-- Two answers that are the same, except that what is written begins with a heading of its
own in each of them. -/
inductive SameAnswer (heading other : String) :
    Except Escape (Option Reply) → Except Escape (Option Reply) → Prop
  | escaped (e : Escape) : SameAnswer heading other (.error e) (.error e)
  | unfinished : SameAnswer heading other (.ok none) (.ok none)
  | answered (exit : Nat) (stdout stderr : String) :
      SameAnswer heading other (.ok (some ⟨exit, heading ++ stdout, stderr⟩))
        (.ok (some ⟨exit, other ++ stdout, stderr⟩))

variable {files : Text → Found} {s other : Settings}

/-- What is written about a run behind the line that announces its source. -/
def reportLines (s : Settings) (r : Run) : List String :=
  let session : Session := { limit := s.limit, recording := s.trace, current := some r }
  aloud s [divider, "Executing...", divider] ++ abortLines session.abort
    ++ accountLines s session ++ resultLines s session

theorem stdout_overReply (s : Settings) (banner : String) (p : Program) (r : Run) :
    (overReply s banner p r).stdout =
      Report.printed (aloud s [banner]) ++ Report.printed (reportLines s r) := by
  rw [← Report.printed_append]
  simp only [overReply, reportLines, List.append_assoc]

/-- The answer to a run that is over, however its source is announced. -/
theorem sameAnswer_overReply (h : s.SameOptions other) (banner title : String) (p : Program)
    (r : Run) :
    SameAnswer (Report.printed (aloud s [banner])) (Report.printed (aloud other [title]))
      (.ok (some (overReply s banner p r))) (.ok (some (overReply other title p r))) := by
  have hs := stdout_overReply s banner p r
  have hother := stdout_overReply other title p r
  have hsame : reportLines s r = reportLines other r ∧
      (overReply s banner p r).exit = (overReply other title p r).exit ∧
      (overReply s banner p r).stderr = (overReply other title p r).stderr := by
    obtain ⟨program, inline, maxCycles, trace, quiet, verbose⟩ := s
    obtain ⟨rfl, rfl, rfl, rfl⟩ := h
    exact ⟨rfl, rfl, rfl⟩
  obtain ⟨hlines, hexit, hstderr⟩ := hsame
  rw [← hlines] at hother
  generalize overReply s banner p r = reply at hs hexit hstderr ⊢
  generalize overReply other title p r = reply' at hother hexit hstderr ⊢
  obtain ⟨exit, stdout, stderr⟩ := reply
  obtain ⟨exit', stdout', stderr'⟩ := reply'
  subst hs hother hexit hstderr
  exact .answered exit _ stderr

/-- The answer to a run that has come to a stop. -/
theorem sameAnswer_runReply (h : s.SameOptions other) (banner title : String) (p : Program)
    (r : Run) :
    SameAnswer (Report.printed (aloud s [banner])) (Report.printed (aloud other [title]))
      ((runReply s banner p r).map some) ((runReply other title p r).map some) := by
  unfold runReply
  cases r.outcome with
  | escaped error => exact .escaped (.limit error)
  | _ => exact sameAnswer_overReply h banner title p r

/-- **The answer to a source text, however announced.** -/
theorem sameAnswer_sourceReply (h : s.SameOptions other) (fuel : Nat) (text : Text)
    (banner title : String) :
    SameAnswer (Report.printed (aloud s [banner])) (Report.printed (aloud other [title]))
      (sourceReply fuel s ⟨banner, text⟩) (sourceReply fuel other ⟨title, text⟩) := by
  cases hsource : Program.ofSource text with
  | error e =>
      cases e with
      | numeral e =>
          simp only [sourceReply, hsource]
          exact .escaped _
      | parse e =>
          simp only [sourceReply, hsource, said, Report.printed_append]
          exact .answered _ _ _
  | ok p =>
      have hlimit : s.limit = other.limit := by
        rw [Settings.limit, h.maxCycles, Settings.limit]
      simp only [sourceReply, hsource, hlimit, h.trace]
      cases p.run? other.limit other.trace fuel with
      | none => exact .unfinished
      | some r => exact sameAnswer_runReply h banner title p r

/-- Settings that ask for a text inline, and settings that ask for it in a file, with all other
options the same. -/
structure Settings.Counterparts (files : Text → Found) (t path : Text)
    (inlined filed : Settings) : Prop where
  unnamed : inlined.program.getD [] = []
  inline : inlined.inline = some (Text.escapeBreaks t)
  program : filed.program = some path
  ne_nil : path ≠ []
  file : files path = .file t
  options : inlined.SameOptions filed

/-- **Source inline and in a file is answered alike.**  A text without carriage returns, in
which no backslash stands before an `n`, comes back from its inline form; whatever the other
options are, the answer to it is the one to a file that holds the text, except for the line
that announces where the source is from. -/
theorem sameAnswer_inline {t : Text} (hreturn : '\r' ∉ t) (hbreak : ¬ ['\\', 'n'] <:+: t) :
    Text.expandBreaks (Text.escapeBreaks t) = t ∧
    ∀ path inlined filed, Settings.Counterparts files t path inlined filed → ∀ fuel,
      SameAnswer (Report.printed (aloud inlined ["Running inline assembly"]))
          (Report.printed (aloud filed [s!"Loading program: {path.str}"]))
          (execute files fuel inlined) (execute files fuel filed) ∧
      ∀ arguments others, Settings.ofArguments arguments = .ok inlined →
        Settings.ofArguments others = .ok filed →
        SameAnswer (Report.printed (aloud inlined ["Running inline assembly"]))
          (Report.printed (aloud filed [s!"Loading program: {path.str}"]))
          (respond files fuel arguments) (respond files fuel others) := by
  have hround := Text.expandBreaks_escapeBreaks hbreak
  refine ⟨hround, ?_⟩
  intro path inlined filed h fuel
  have hinlined : source files inlined = .ok (some ⟨"Running inline assembly", t⟩) := by
    simp only [source, h.unnamed, if_true, h.inline, Option.getD_some, hround]
  have hfiled := source_eq_of_file h.program h.ne_nil h.file hreturn
  have hanswer : SameAnswer (Report.printed (aloud inlined ["Running inline assembly"]))
      (Report.printed (aloud filed [s!"Loading program: {path.str}"]))
      (execute files fuel inlined) (execute files fuel filed) := by
    simp only [execute, hinlined, hfiled]
    exact sameAnswer_sourceReply h.options fuel t _ _
  refine ⟨hanswer, ?_⟩
  intro arguments others harguments hothers
  simp only [respond, harguments, hothers]
  exact hanswer

/-- A backslash at the end of a line, in front of a written newline. -/
theorem sameAnswer_inline_backslash :
    ∃ t reply reply', t = "; \\\nmsg 'x\\'\nend".toList ∧
      Text.escapeBreaks t = "; \\\\nmsg 'x\\'\\nend".toList ∧
      Text.expandBreaks (Text.escapeBreaks t) = t ∧
      respond (fun _ => .file t) 0 [['-', 'i'], Text.escapeBreaks t] = .ok (some reply) ∧
      respond (fun _ => .file t) 0 [['-', 'p'], ['a']] = .ok (some reply') ∧
      reply.exit = 0 ∧ reply'.exit = 0 ∧ reply.stderr = reply'.stderr ∧
      ∃ rest, reply.stdout = "Running inline assembly\n" ++ rest ∧
        reply'.stdout = "Loading program: a\n" ++ rest := by
  obtain ⟨path, hpath⟩ : ∃ path : Text, path = ['a'] := ⟨_, rfl⟩
  obtain ⟨t, ht⟩ : ∃ t, t = "; \\\nmsg 'x\\'\nend".toList := ⟨_, rfl⟩
  have hreturn : '\r' ∉ t := by
    subst ht
    decide
  have hbreak : ¬ ['\\', 'n'] <:+: t := by
    subst ht
    decide +kernel
  have hinlined : Settings.ofArguments [['-', 'i'], Text.escapeBreaks t] =
      .ok { inline := some (Text.escapeBreaks t) } := by
    subst ht
    decide +kernel
  have hfiled : Settings.ofArguments [['-', 'p'], path] = .ok { program := some path } := by
    subst hpath
    decide
  have hexit : (respond (fun _ => .file t) 0 [['-', 'i'], Text.escapeBreaks t]).map
      (Option.map Reply.exit) = .ok (some 0) := by
    subst ht
    decide +kernel
  have hwritten : Text.escapeBreaks t = "; \\\\nmsg 'x\\'\\nend".toList := by
    subst ht
    decide +kernel
  have hheading : Report.printed (aloud { inline := some (Text.escapeBreaks t) }
      ["Running inline assembly"]) = "Running inline assembly\n" := by
    subst ht
    decide +kernel
  have hheading' : Report.printed (aloud { program := some path }
      [s!"Loading program: {path.str}"]) = "Loading program: a\n" := by
    subst hpath
    decide +kernel
  obtain ⟨hround, hanswers⟩ := @sameAnswer_inline (fun _ => .file t) t hreturn hbreak
  obtain ⟨-, hanswer⟩ := hanswers path { inline := some (Text.escapeBreaks t) }
    { program := some path } ⟨rfl, rfl, rfl, by simp [hpath], rfl, ⟨rfl, rfl, rfl, rfl⟩⟩ 0
  have hsame := hanswer _ _ hinlined hfiled
  rw [hheading, hheading'] at hsame
  rw [← hpath]
  refine ⟨t, ?_⟩
  generalize respond (fun _ => .file t) 0 [['-', 'i'], Text.escapeBreaks t] = answer
    at hexit hsame ⊢
  generalize respond (fun _ => .file t) 0 [['-', 'p'], path] = answer' at hsame ⊢
  cases hsame with
  | escaped e => cases hexit
  | unfinished => cases hexit
  | answered exit stdout stderr =>
      cases hexit
      exact ⟨_, _, ht, hwritten, hround, rfl, rfl, rfl, rfl, rfl, stdout, rfl, rfl⟩

end CommandLine
end RegisterMachine
