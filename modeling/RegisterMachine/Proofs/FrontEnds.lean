import RegisterMachine.CommandLine.Reply
import RegisterMachine.Playground.Panes
import RegisterMachine.Proofs.Arguments
import RegisterMachine.Proofs.Budget
import RegisterMachine.Proofs.Obstacles
import RegisterMachine.Proofs.Recording

/-!
# The front ends

The command line and the playground both read a source text, run it under a limit and
report how that ended, each in its own words.  What they report follows from what reading
and running the text comes to.  A numeral that is too long gets past both of them, and a limit
that cannot be shown gets past the playground; no arguments ask for such a limit.

**Contents.**
* `CommandLine.QuietCall`: arguments that ask for a quiet run of the program in a file.
* `CommandLine.QuietReply`: what such a call answers.
* `Playground.Shown`: what the panes show.

**Results.**
* `CommandLine.quietReply_overReply`, `Playground.shown_panes`: the report on a run.
* `Program.ofSource_obstacle`: how a source fails to be read, and who reports it.
* `Program.ofSource_overlong`: a numeral of 4301 digits is no parse error.
* `runSource?_frontEnds`: the two front ends agree.
-/

namespace RegisterMachine
namespace Text

/-- A text without carriage returns is read from a file as it stands. -/
theorem unifyNewlines_of_not_mem {t : Text} (h : '\r' ∉ t) : unifyNewlines t = t := by
  induction t with
  | nil =>
      rfl
  | cons c cs ih =>
      simp only [List.mem_cons, not_or] at h
      obtain ⟨hc, hcs⟩ := h
      have hne : c ≠ '\r' := fun heq => hc heq.symm
      rw [unifyNewlines, ih hcs]
      · intro _ heq
        exact absurd heq hne
      · exact hne

/-- Something is left of a text that is not blank. -/
theorem trim_ne_nil {t : Text} (h : ∃ c ∈ t, isBlank c = false) : trim t ≠ [] := by
  obtain ⟨u, v, hu, hv, ht⟩ := exists_trim t
  intro hnil
  obtain ⟨c, hc, hblank⟩ := h
  rw [ht, hnil, List.append_nil] at hc
  have hc' : isBlank c = true := (List.mem_append.mp hc).elim (hu c) (hv c)
  rw [hblank] at hc'
  cases hc'

end Text

namespace CommandLine

variable {files : Text → Found} {fuel : Nat} {arguments : List Text} {s : Settings}
  {given : Source}

/-- The reply to arguments is the reply to the source text that they ask for. -/
theorem respond_of_source (hs : Settings.ofArguments arguments = .ok s)
    (hgiven : source files s = .ok (some given)) :
    respond files fuel arguments = sourceReply fuel s given := by
  simp only [respond, hs, execute, hgiven]

/-- The source text of an existing file is what the file holds, with a line that names it. -/
theorem source_eq_of_file {path content : Text} (hpath : s.program = some path) (hne : path ≠ [])
    (hfile : files path = .file content) (hreturn : '\r' ∉ content) :
    source files s = .ok (some ⟨s!"Loading program: {path.str}", content⟩) := by
  simp only [source, hpath, Option.getD_some, if_neg hne, hfile, Found.content?, Except.map,
    Option.map_some, Text.unifyNewlines_of_not_mem hreturn]

theorem source_of_file {path content : Text} (hpath : s.program = some path) (hne : path ≠ [])
    (hfile : files path = .file content) (hreturn : '\r' ∉ content) :
    ∃ banner, source files s = .ok (some ⟨banner, content⟩) :=
  ⟨_, source_eq_of_file hpath hne hfile hreturn⟩

/-- A run that is over is replied to. -/
theorem runReply_of_isOver (banner : String) (p : Program) {r : Run} (h : r.isOver = true) :
    runReply s banner p r = .ok (overReply s banner p r) := by
  unfold runReply
  split
  · rename_i error houtcome
    exact absurd houtcome (Run.outcome_ne_escaped h error)
  · rfl

/-- A limit that can be shown, or no limit, leaves only runs that are over. -/
theorem isOver_of_run? (hlimit : Numeral.isShowable s.maxCycles = true) {source : Text}
    {p : Program} (hp : Program.ofSource source = .ok p) {recording : Bool} {r : Run}
    (hr : p.run? s.limit recording fuel = some r) : r.isOver = true := by
  refine (Program.laidOut_ofSource hp).isOver_of_run? ?_ hr
  intro most hmost
  simp only [Settings.limit, Option.ite_none_left_eq_some, Option.some.injEq] at hmost
  rw [← hmost.2]
  exact hlimit

/-- Only a numeral that is too long keeps a source text from being answered. -/
theorem sourceReply_eq_error_iff (hlimit : Numeral.isShowable s.maxCycles = true)
    {escape : Escape} :
    sourceReply fuel s given = .error escape ↔
      ∃ long, escape = .numeral long ∧ Program.ofSource given.text = .error (.numeral long) := by
  unfold sourceReply
  cases hsource : Program.ofSource given.text with
  | ok p =>
      cases hr : p.run? s.limit s.trace fuel with
      | none =>
          simp [hr]
      | some r =>
          have hreply := @runReply_of_isOver s given.banner p r (isOver_of_run? hlimit hsource hr)
          simp [hr, hreply, Except.map]
  | error e =>
      cases e with
      | parse e => simp
      | numeral long => simp [eq_comm]

theorem sourceReply_of_parse {e : ParseError}
    (h : Program.ofSource given.text = .error (.parse e)) :
    sourceReply fuel s given =
      .ok (some (said .error (aloud s [given.banner] ++ [s!"Parse error: {e.message}"]))) := by
  simp only [sourceReply, h]

/-- What a quiet call answers, by what running the source text comes to. -/
inductive QuietReply : Except LoadError (Option Run) → Reply → Prop
  | result {r : Run} {output : Text} (h : r.outcome = .finished output) (stderr : String) :
      QuietReply (.ok (some r)) ⟨0, output.str ++ "\n", stderr⟩
  | noResult {r : Run} (h : r.outcome = .ranOff) (stderr : String) :
      QuietReply (.ok (some r)) ⟨1, "", stderr⟩
  | stopped {r : Run} {limit : Int} (h : r.outcome = .aborted (.exhausted limit))
      (stderr : String) :
      QuietReply (.ok (some r))
        ⟨2, "Execution stopped: " ++ (Abort.exhausted limit).message ++ "\n", stderr⟩
  | failed {r : Run} {failure : Failure} (h : r.outcome = .aborted (.failed failure))
      (stderr : String) :
      QuietReply (.ok (some r))
        ⟨2, "Execution error: " ++ failure.message ++ "\n", stderr⟩
  | refused (e : ParseError) (stderr : String) :
      QuietReply (.error (.parse e)) ⟨2, "Parse error: " ++ e.message ++ "\n", stderr⟩

theorem aloud_of_quiet (hquiet : s.quiet = true) (lines : List String) : aloud s lines = [] := by
  simp [aloud, hquiet]

theorem stdout_of_quiet (hquiet : s.quiet = true) (htrace : s.trace = false) (banner : String)
    (p : Program) (r : Run) :
    (overReply s banner p r).stdout =
      Report.printed (abortLines r.abort ++ (r.machine.result.map Text.str).toList) := by
  unfold overReply accountLines resultLines
  simp only [aloud_of_quiet hquiet, htrace, Session.abort, Session.result, Option.bind_some,
    Bool.false_eq_true, if_false, List.nil_append, List.append_nil, ite_self]
  cases r.machine.result <;> rfl

/-- **The exit code and the output of a quiet call** follow from how the run ended. -/
theorem quietReply_overReply (hquiet : s.quiet = true) (htrace : s.trace = false)
    (banner : String) (p : Program) {r : Run} (h : r.Sound) (hover : r.isOver = true) :
    QuietReply (.ok (some r)) (overReply s banner p r) := by
  have hstdout := stdout_of_quiet hquiet htrace banner p r
  have hexit : (overReply s banner p r).exit = (exitOf { current := some r }).code := rfl
  generalize overReply s banner p r = reply at hstdout hexit
  obtain ⟨exit, stdout, stderr⟩ := reply
  subst hstdout hexit
  rcases h.outcome_cases with ⟨cause, houtcome, habort, hresult⟩ |
    ⟨output, houtcome, habort, hresult⟩ | ⟨houtcome, habort, hresult, -⟩ | ⟨houtcome, -⟩
  · simp only [exitOf, Session.abort, Option.bind_some, habort, hresult]
    cases cause with
    | exhausted limit => exact .stopped houtcome stderr
    | failed failure => exact .failed houtcome stderr
  · simp only [exitOf, Session.abort, Session.result, Option.bind_some, habort, hresult]
    exact .result houtcome stderr
  · simp only [exitOf, Session.abort, Session.result, Option.bind_some, habort, hresult]
    exact .noResult houtcome stderr
  · exact absurd houtcome (Run.outcome_ne_escaped hover {})

/-- Arguments that ask for a quiet run of the program in a file, under a limit. -/
structure QuietCall (files : Text → Found) (arguments : List Text) (content : Text)
    (most : Int) (s : Settings) (path : Text) : Prop where
  settings : Settings.ofArguments arguments = .ok s
  program : s.program = some path
  ne_nil : path ≠ []
  file : files path = .file content
  limit : s.maxCycles = most
  quiet : s.quiet = true
  untraced : s.trace = false

/-- A quiet call is answered as the run of its source text ends. -/
theorem QuietCall.exists_quietReply {content path : Text} {most : Int}
    (h : QuietCall files arguments content most s path) (hreturn : '\r' ∉ content)
    (hshort : ∀ long, Program.ofSource content ≠ .error (.numeral long)) (hmost : most ≠ 0)
    (fuel : Nat) :
    ∃ reply, respond files fuel arguments = .ok (some reply) ∧
      QuietReply (runSource? content (some most) fuel) reply := by
  -- reading the file changes nothing, so that it is its content that is run
  obtain ⟨banner, hgiven⟩ := source_of_file h.program h.ne_nil h.file hreturn
  rw [respond_of_source h.settings hgiven]
  unfold runSource?
  cases hsource : Program.ofSource content with
  | error e =>
      cases e with
      | numeral long =>
          exact absurd hsource (hshort long)
      | parse e =>
          have hreply := @sourceReply_of_parse fuel s ⟨banner, content⟩ e hsource
          rw [aloud_of_quiet h.quiet] at hreply
          exact ⟨_, hreply, .refused e ""⟩
  | ok p =>
      have hlimit : s.limit = some most := by
        rw [Settings.limit, h.limit, if_neg hmost]
      have hsound : (p.runWithin most false).Sound :=
        (Run.Sound.initial (Program.laidOut_ofSource hsource)).proceed _ false _
      have hover : (p.runWithin most false).isOver = true := by
        have hrun : p.run? s.limit false fuel = some (p.runWithin most false) := by
          rw [hlimit]
          rfl
        exact isOver_of_run? (Settings.isShowable_of_ofArguments h.settings) hsource hrun
      refine ⟨_, ?_, quietReply_overReply h.quiet h.untraced banner p hsound hover⟩
      simp only [sourceReply, hsource, hlimit, h.untraced, Program.run?,
        runReply_of_isOver banner p hover, Except.map]

end CommandLine

/-- What the summary of a session says about the end of its run. -/
theorem Session.summary_of_current {s : Session} {r : Run} (h : s.current = some r) :
    s.summary.result = r.machine.result ∧ s.summary.abort = r.abort ∧
      s.summary.output = r.machine.output := by
  simp [summary, h]

namespace Playground

variable {text : Text} {most : Int}

/-- A run that is over is shown. -/
theorem runPanes_of_isOver {r : Run} (h : r.isOver = true) :
    runPanes most r = .ok (panes { limit := some most, recording := true, current := some r }) := by
  unfold runPanes
  split
  · rename_i error houtcome
    exact absurd houtcome (Run.outcome_ne_escaped h error)
  · rfl

/-- A stuck run is not shown. -/
theorem runPanes_of_stuck {r : Run} {limit : Option Int} (h : r.Stuck limit) :
    runPanes most r = .error (.limit {}) := by
  rw [runPanes, h.outcome_eq]

theorem view_of_ok (hne : Text.trim text ≠ []) {p : Program}
    (h : Program.ofSource text = .ok p) :
    view text most = runPanes most (p.runWithin most true) := by
  simp only [view, if_neg hne, h]

/-- Why there may be no panes: a numeral that is too long, or a limit that cannot be shown. -/
theorem view_eq_error_iff (hne : Text.trim text ≠ []) {escape : Escape} :
    view text most = .error escape ↔
      (∃ long, escape = .numeral long ∧ Program.ofSource text = .error (.numeral long)) ∨
      escape = .limit {} ∧ ∃ p, Program.ofSource text = .ok p ∧
        (p.runWithin most true).isOver = false := by
  cases hsource : Program.ofSource text with
  | ok p =>
      rw [view_of_ok hne hsource]
      rcases (Program.laidOut_ofSource hsource).isOver_or_stuck_runWithin most true with
        hover | ⟨-, hstuck⟩
      · simp [runPanes_of_isOver hover, hover]
      · simp only [runPanes_of_stuck hstuck, Except.error.injEq, reduceCtorEq, and_false,
          exists_false, false_or, Except.ok.injEq, exists_eq_left', hstuck.running, and_true]
        exact eq_comm
  | error e =>
      unfold view
      rw [if_neg hne, hsource]
      cases e with
      | numeral long =>
          simp only [Except.error.injEq, LoadError.numeral.injEq, exists_eq_right', reduceCtorEq,
            false_and, exists_false, and_false, or_false]
          exact eq_comm
      | parse e =>
          simp

theorem view_of_parse (hne : Text.trim text ≠ []) {e : ParseError}
    (h : Program.ofSource text = .error (.parse e)) :
    view text most = .ok (refusal s!"Parse error: {e.message}") := by
  simp only [view, if_neg hne, h]

/-- What the panes show, by what running the source text comes to. -/
inductive Shown : Except LoadError (Option Run) → Panes → Prop
  | result {r : Run} {output : Text} {panes : Panes} (h : r.outcome = .finished output)
      (houtput : panes.output = output.str)
      (hend : "Reached END: Yes".toList ∈ Text.lines panes.summary.toList) :
      Shown (.ok (some r)) panes
  | noResult {r : Run} {panes : Panes} (h : r.outcome = .ranOff)
      (houtput :
        panes.output = "(no result: the program ran off its last line without END)")
      (hend : "Reached END: No".toList ∈ Text.lines panes.summary.toList) :
      Shown (.ok (some r)) panes
  | stopped {r : Run} {limit : Int} {panes : Panes} (h : r.outcome = .aborted (.exhausted limit))
      (houtput :
        panes.output = s!"(no result; partial output: {r.machine.output.quoted.str})")
      (hend : "Reached END: No".toList ∈ Text.lines panes.summary.toList)
      (hnote : ∃ front,
        panes.summary = front ++ "\n\n" ++ s!"Stopped: {(Abort.exhausted limit).message}") :
      Shown (.ok (some r)) panes
  | failed {r : Run} {failure : Failure} {panes : Panes}
      (h : r.outcome = .aborted (.failed failure))
      (houtput :
        panes.output = s!"(no result; partial output: {r.machine.output.quoted.str})")
      (hend : "Reached END: No".toList ∈ Text.lines panes.summary.toList)
      (hnote : ∃ front,
        panes.summary = front ++ "\n\n" ++ s!"Error: {failure.message}") :
      Shown (.ok (some r)) panes
  | refused (e : ParseError) :
      Shown (.error (.parse e)) { summary := "Parse error: " ++ e.message }

theorem pane_append {ls ms : List String} (hls : ls ≠ []) (hms : ms ≠ []) :
    pane (ls ++ ms) = pane ls ++ "\n" ++ pane ms := by
  unfold pane
  induction ls with
  | nil =>
      exact absurd rfl hls
  | cons l ls ih =>
      by_cases hnil : ls = []
      · subst hnil
        rw [List.singleton_append, String.intercalate_cons_of_ne_nil hms,
          String.intercalate_singleton]
      · rw [List.cons_append, String.intercalate_cons_of_ne_nil (by simp [hnil]), ih hnil,
          String.intercalate_cons_of_ne_nil hnil]
        simp only [String.append_assoc]

/-- A line of a pane is found among the lines of its text. -/
theorem mem_lines_pane {line : String} {ls : List String} (h : line ∈ ls)
    (hline : '\n' ∉ line.toList) : line.toList ∈ Text.lines (pane ls).toList := by
  have hself : Text.lines line.toList = [line.toList] := Text.lines_of_not_mem hline
  induction ls with
  | nil =>
      cases h
  | cons l ls ih =>
      by_cases hnil : ls = []
      · subst hnil
        rw [List.mem_singleton] at h
        subst h
        rw [pane, String.intercalate_singleton, hself]
        exact List.mem_singleton_self _
      · have hcut : (pane (l :: ls)).toList = l.toList ++ '\n' :: (pane ls).toList := by
          rw [pane, String.intercalate_cons_of_ne_nil hnil, String.toList_append,
            String.toList_append, List.append_assoc]
          rfl
        rw [hcut, Text.lines_append, List.mem_append]
        rcases List.mem_cons.mp h with rfl | h
        · exact .inl (by rw [hself]; exact List.mem_singleton_self _)
        · exact .inr (ih h)

/-- The summary has a line that says whether the program ended itself. -/
theorem mem_lines_summaryPane (m : Summary) :
    (if m.terminated then "Reached END: Yes" else "Reached END: No").toList ∈
      Text.lines (summaryPane m).toList := by
  have hline : (if m.terminated then "Reached END: Yes" else "Reached END: No") =
      "Reached END: " ++ if m.terminated then "Yes" else "No" := by
    cases m.terminated <;> decide
  apply mem_lines_pane
  · rw [hline]
    exact List.mem_append_left _ (.tail _ (.tail _ (.tail _ (.head _))))
  · cases m.terminated <;> decide

/-- The summary of a run that was broken off ends with the reason. -/
theorem summaryPane_of_abort {m : Summary} {cause : Abort} (h : m.abort = some cause) :
    ∃ front, summaryPane m = front ++ "\n\n" ++ abortNote cause := by
  have hpane : ∀ ls, ls ≠ [] →
      pane (ls ++ ["", abortNote cause]) = pane ls ++ "\n\n" ++ abortNote cause := by
    intro ls hls
    have hnote : pane ["", abortNote cause] = "\n" ++ abortNote cause := by
      rw [pane, String.intercalate_cons_cons, String.intercalate_singleton, String.empty_append]
    have hbreaks : "\n\n" = "\n" ++ "\n" := by
      decide
    rw [pane_append hls (by simp), hnote, hbreaks]
    simp only [String.append_assoc]
  unfold summaryPane
  rw [h, Option.map_some, Option.getD_some, hpane _ (by simp)]
  exact ⟨_, rfl⟩

/-- **What the panes show** follows from how the run ended, recorded or not. -/
theorem shown_panes {session : Session} {r : Run} (hcurrent : session.current = some r)
    (h : r.Sound) (hover : r.isOver = true) : Shown (.ok (some r.plain)) (panes session) := by
  obtain ⟨hresult, habort, hpartial⟩ := Session.summary_of_current hcurrent
  have houtput : (panes session).output = outputPane session.summary := by
    simp only [panes]
  have hsummary : (panes session).summary = summaryPane session.summary := by
    simp only [panes]
  have hlines := mem_lines_summaryPane session.summary
  rw [outputPane, hresult, habort] at houtput
  rw [Summary.terminated, hresult, ← hsummary] at hlines
  rcases h.outcome_cases with ⟨cause, houtcome, haborted, hnone⟩ |
    ⟨output, houtcome, haborted, hsome⟩ | ⟨houtcome, haborted, hnone, -⟩ | ⟨houtcome, -⟩
  · have hnote := summaryPane_of_abort (habort.trans haborted)
    rw [← hsummary] at hnote
    rw [haborted, hnone, hpartial] at houtput
    simp only [hnone, Option.isSome_none, Bool.false_eq_true, if_false] at hlines
    cases cause with
    | exhausted most => exact .stopped houtcome houtput hlines hnote
    | failed failure => exact .failed houtcome houtput hlines hnote
  · rw [haborted, hsome] at houtput
    simp only [hsome, Option.isSome_some, if_true] at hlines
    exact .result houtcome houtput hlines
  · rw [haborted, hnone] at houtput
    simp only [hnone, Option.isSome_none, Bool.false_eq_true, if_false] at hlines
    exact .noResult houtcome houtput hlines
  · exact absurd houtcome (Run.outcome_ne_escaped hover {})

/-- The panes show how the run of a source text ends. -/
theorem exists_shown {text : Text} (hne : Text.trim text ≠ [])
    (hshort : ∀ long, Program.ofSource text ≠ .error (.numeral long)) {most : Int} {fuel : Nat}
    (hover : ∀ r, runSource? text (some most) fuel = .ok (some r) → r.isOver = true) :
    ∃ panes, view text most = .ok panes ∧ Shown (runSource? text (some most) fuel) panes := by
  unfold runSource? at hover ⊢
  cases hsource : Program.ofSource text with
  | error e =>
      cases e with
      | numeral long =>
          exact absurd hsource (hshort long)
      | parse e =>
          exact ⟨_, view_of_parse hne hsource, .refused e⟩
  | ok p =>
      have hsound : (p.runWithin most true).Sound :=
        (Run.Sound.initial (Program.laidOut_ofSource hsource)).proceed _ true _
      -- the panes are those of a recorded run, which ends as the unrecorded one does
      have hend : (p.runWithin most true).isOver = true := by
        rw [← Run.isOver_plain, p.plain_runWithin most true]
        apply hover
        rw [hsource]
        rfl
      have hshown := @shown_panes
        { limit := some most, recording := true, current := some (p.runWithin most true) } _
        rfl hsound hend
      rw [p.plain_runWithin most true] at hshown
      exact ⟨_, by rw [view_of_ok hne hsource, runPanes_of_isOver hend], hshown⟩

end Playground

/-- **How a source fails to be read, and who reports it.**  A source without obstacles is
read; otherwise the first obstacle is the error.  Without an overlong numeral, that is a
label defined twice.  Both front ends report it as a parse error, and both break off at an
overlong numeral.  Nothing else makes the command line break off, and the playground only a
limit that cannot be shown. -/
theorem Program.ofSource_obstacle (source : Text) :
    ((∃ p, ofSource source = .ok p) ↔ ∀ place e, ¬ Obstacle source.lines place e) ∧
    (∀ e, ofSource source = .error e ↔ ∃ place, FirstObstacle source.lines place e) ∧
    ((∀ raw ∈ source.lines, Line.overlong? raw = none) →
      ((∃ e, ofSource source = .error e) ↔
        ∃ first second name, Repeats source.lines first second name) ∧
      ∀ e, ofSource source = .error e → ∃ (first second : Nat) (name : Text),
        e = .parse (.duplicateLabel name first second) ∧
          Repeats source.lines first second name) ∧
    (∀ text long, Instruction.ofText text = .error long ↔
      Instruction.overlong? text = some long) ∧
    (∀ files fuel arguments s given, CommandLine.Settings.ofArguments arguments = .ok s →
      CommandLine.source files s = .ok (some given) → given.text = source →
      (∀ escape, CommandLine.respond files fuel arguments = .error escape ↔
        ∃ place long, escape = .numeral long ∧
          FirstObstacle source.lines place (.numeral long)) ∧
      ∀ place e, FirstObstacle source.lines place (.parse e) →
        CommandLine.respond files fuel arguments =
          .ok (some (CommandLine.said .error
            (CommandLine.aloud s [given.banner] ++ [s!"Parse error: {e.message}"])))) ∧
    (∀ most, Text.trim source ≠ [] →
      (∀ long, Playground.view source most = .error (.numeral long) ↔
        ∃ place, FirstObstacle source.lines place (.numeral long)) ∧
      (∀ error, Playground.view source most = .error (.limit error) →
        Numeral.isShowable most = false) ∧
      ∀ place e, FirstObstacle source.lines place (.parse e) →
        Playground.view source most =
          .ok (Playground.refusal s!"Parse error: {e.message}")) := by
  have herror : ∀ e, ofSource source = .error e ↔ ∃ place, FirstObstacle source.lines place e :=
    fun e => ofLines_eq_error_iff
  refine ⟨exists_ofLines_iff, herror, ?_, ?_, ?_, ?_⟩
  · intro hshort
    refine ⟨⟨?_, ?_⟩, fun e he => exists_repeats_of_error hshort he⟩
    · rintro ⟨e, he⟩
      obtain ⟨first, second, name, -, h⟩ := exists_repeats_of_error hshort he
      exact ⟨first, second, name, h⟩
    · rintro ⟨first, second, name, h⟩
      obtain ⟨place, e, hfirst⟩ := (Obstacle.label h).exists_first
      exact ⟨e, (herror e).mpr ⟨place, hfirst⟩⟩
  · intro text long
    rw [← Instruction.error?_ofText, Result.error?_eq_some_iff]
  · rintro files fuel arguments s given hs hgiven rfl
    have hrespond := @CommandLine.respond_of_source files fuel arguments s given hs hgiven
    refine ⟨?_, ?_⟩
    · intro escape
      have hlimit := CommandLine.Settings.isShowable_of_ofArguments hs
      rw [hrespond, CommandLine.sourceReply_eq_error_iff hlimit]
      simp only [herror]
      constructor
      · rintro ⟨long, hescape, place, hfirst⟩
        exact ⟨place, long, hescape, hfirst⟩
      · rintro ⟨place, long, hescape, hfirst⟩
        exact ⟨long, hescape, place, hfirst⟩
    · intro place e hfirst
      rw [hrespond]
      exact CommandLine.sourceReply_of_parse ((herror _).mpr ⟨place, hfirst⟩)
  · intro most hne
    refine ⟨?_, ?_, ?_⟩
    · intro long
      simp [Playground.view_eq_error_iff hne, herror]
    · intro error herror
      simp only [Playground.view_eq_error_iff hne, reduceCtorEq, false_and, exists_false,
        false_or] at herror
      obtain ⟨-, p, hp, hnot⟩ := herror
      rcases (laidOut_ofSource hp).isOver_or_stuck_runWithin most true with hover | ⟨hlong, -⟩
      · rw [hover] at hnot
        cases hnot
      · exact hlong
    · intro place e hfirst
      exact Playground.view_of_parse hne ((herror _).mpr ⟨place, hfirst⟩)

/-- A numeral of 4301 digits is not reported as a parse error: it breaks off whatever meets
it, although no label is defined. -/
theorem Program.ofSource_overlong :
    ofSource (Instruction.zeroMove 4301) = .error (.numeral ⟨4301⟩) ∧
    (∀ first second name, ¬ Repeats (Instruction.zeroMove 4301).lines first second name) ∧
    Instruction.ofText (Instruction.zeroMove 4301) = .error ⟨4301⟩ ∧
    CommandLine.respond (fun _ => .file (Instruction.zeroMove 4301)) 0
      [['-', 'p'], ['a']] = .error (.numeral ⟨4301⟩) ∧
    Playground.view (Instruction.zeroMove 4301) 1 = .error (.numeral ⟨4301⟩) := by
  have hlong : Numeral.maxDigits < 4301 := Nat.lt_succ_self 4300
  have hsource := ofSource_zeroMove hlong
  have hnewline : '\n' ∉ Instruction.zeroMove 4301 := Instruction.not_mem_zeroMove (by decide)
  have hreturn : '\r' ∉ Instruction.zeroMove 4301 := Instruction.not_mem_zeroMove (by decide)
  refine ⟨hsource, ?_, ?_, ?_, ?_⟩
  · intro first second name h
    have hlater := h.later
    have hlt := h.lt
    rw [Text.lines_of_not_mem hnewline, List.getElem?_eq_none (by simp; omega)] at hlater
    cases hlater
  · exact Result.error?_eq_some_iff.mp
      ((Instruction.error?_ofText _).trans (Instruction.overlong?_zeroMove hlong))
  · have hs : CommandLine.Settings.ofArguments [['-', 'p'], ['a']] =
        .ok { program := some ['a'] } := by
      decide
    have hfile : ∃ banner, CommandLine.source (fun _ => .file (Instruction.zeroMove 4301))
        { program := some ['a'] } = .ok (some ⟨banner, Instruction.zeroMove 4301⟩) :=
      CommandLine.source_of_file rfl (List.cons_ne_nil 'a' []) rfl hreturn
    obtain ⟨banner, hgiven⟩ := hfile
    rw [CommandLine.respond_of_source hs hgiven, CommandLine.sourceReply_eq_error_iff
      (CommandLine.Settings.isShowable_of_ofArguments hs)]
    exact ⟨⟨4301⟩, rfl, hsource⟩
  · have hne : Text.trim (Instruction.zeroMove 4301) ≠ [] :=
      Text.trim_ne_nil ⟨'m', List.mem_cons_self, by decide⟩
    rw [Playground.view_eq_error_iff hne]
    exact .inl ⟨⟨4301⟩, rfl, hsource⟩

/-- **The front ends agree** on what running a source text under a limit comes to.  Such a
run ends, unless its limit is spent and cannot be shown, which no arguments can ask for and
the playground breaks off at.  A quiet call and the panes report the same end, each in its
own words. -/
theorem runSource?_frontEnds {source : Text} {most : Int} (hreturn : '\r' ∉ source)
    (hink : ∃ c ∈ source, Text.isBlank c = false)
    (hshort : ∀ long, Program.ofSource source ≠ .error (.numeral long)) (hmost : most ≠ 0)
    (fuel : Nat) :
    (∀ ended, runSource? source (some most) fuel = .ok ended →
      ∃ r, ended = some r ∧
        (r.isOver = true ∨
          Numeral.isShowable most = false ∧ r.outcome = .escaped {} ∧
            Playground.view source most = .error (.limit {}))) ∧
    (∀ files arguments s path, CommandLine.QuietCall files arguments source most s path →
      ∃ reply, CommandLine.respond files fuel arguments = .ok (some reply) ∧
        CommandLine.QuietReply (runSource? source (some most) fuel) reply) ∧
    ((∀ r, runSource? source (some most) fuel = .ok (some r) → r.isOver = true) →
      ∃ panes, Playground.view source most = .ok panes ∧
        Playground.Shown (runSource? source (some most) fuel) panes) := by
  have hne := Text.trim_ne_nil hink
  refine ⟨?_, ?_, Playground.exists_shown hne hshort⟩
  · intro ended hended
    obtain ⟨p, hp, rfl⟩ := Result.map_eq_ok.mp hended
    refine ⟨_, rfl, ?_⟩
    rcases (Program.laidOut_ofSource hp).isOver_or_stuck_runWithin most false with
      hover | ⟨hlong, hstuck⟩
    · exact .inl hover
    · have hnot : (p.runWithin most true).isOver = false := by
        rw [← Run.isOver_plain, p.plain_runWithin most true]
        exact hstuck.running
      exact .inr ⟨hlong, hstuck.outcome_eq,
        (Playground.view_eq_error_iff hne).mpr (.inr ⟨rfl, p, hp, hnot⟩)⟩
  · intro files arguments s path hcall
    exact hcall.exists_quietReply hreturn hshort hmost fuel

/-- A program that fails with some text written: both front ends report the failure, and the
panes show the text. -/
theorem runSource?_frontEnds_failure :
    ∃ source r failure reply panes, source = "mov a,1\nmsg 'n',a\nmsg b".toList ∧
      runSource? source (some 5) 0 = .ok (some r) ∧ r.outcome = .aborted (.failed failure) ∧
      CommandLine.respond (fun _ => .file source) 0
        (["-p", "a", "--max-cycles", "5", "-q"].map String.toList) = .ok (some reply) ∧
      reply.exit = 2 ∧ reply.stdout = "Execution error: " ++ failure.message ++ "\n" ∧
      Playground.view source 5 = .ok panes ∧
      panes.output = "(no result; partial output: \x27n1\x27)" := by
  obtain ⟨p, hp⟩ : ∃ p, p =
      ({ lines :=
          [.instruction { opcode := .mov, operands := [.register ['a'], .integer 1],
                          token := "mov".toList, text := "mov a,1".toList },
            .instruction { opcode := .msg, operands := [.text ['n'], .register ['a']],
                           token := "msg".toList, text := "msg 'n',a".toList },
            .instruction { opcode := .msg, operands := [.register ['b']],
                           token := "msg".toList, text := "msg b".toList }] } : Program) :=
    ⟨_, rfl⟩
  have hload : Program.ofSource "mov a,1\nmsg 'n',a\nmsg b".toList = .ok p := by
    subst hp
    decide +kernel
  have hrun : runSource? "mov a,1\nmsg 'n',a\nmsg b".toList (some 5) 0 =
      .ok (some (p.runWithin 5 false)) := by
    rw [runSource?, hload]
    rfl
  have houtcome : (p.runWithin 5 false).outcome = .aborted (.failed
      { fault := .unsetRegister ['b'], line := some 2, source := some "msg b".toList,
        output := "n1".toList }) := by
    subst hp
    decide +kernel
  have hshort : ∀ long, Program.ofSource "mov a,1\nmsg 'n',a\nmsg b".toList ≠
      .error (.numeral long) := by
    intro long hlong
    rw [hload] at hlong
    cases hlong
  have hover : (p.runWithin 5 false).isOver = true := by
    subst hp
    decide +kernel
  obtain ⟨-, hquiet, hpanes⟩ := @runSource?_frontEnds
    "mov a,1\nmsg 'n',a\nmsg b".toList 5 (by decide) ⟨'m', by decide⟩ hshort (by decide) 0
  obtain ⟨panes, hview, hshown⟩ := hpanes (by rw [hrun]; rintro r ⟨⟩; exact hover)
  obtain ⟨reply, hrespond, hreply⟩ := hquiet (fun _ => .file "mov a,1\nmsg 'n',a\nmsg b".toList)
    (["-p", "a", "--max-cycles", "5", "-q"].map String.toList)
    { program := some ['a'], maxCycles := 5, quiet := true } ['a']
    ⟨by decide +kernel, rfl, by decide, rfl, rfl, rfl, rfl⟩
  rw [hrun] at hreply hshown
  cases hreply with
  | failed h stderr =>
      cases hshown with
      | failed _ houtput _ _ =>
          rw [houtcome] at h
          cases h
          refine ⟨_, _, _, _, panes, rfl, hrun, houtcome, hrespond, rfl, rfl, hview, ?_⟩
          rw [houtput]
          subst hp
          decide +kernel
      | result h' _ _ | noResult h' _ _ | stopped h' _ _ _ =>
          rw [houtcome] at h'
          cases h'
  | result h _ | noResult h _ | stopped h _ =>
      rw [houtcome] at h
      cases h

end RegisterMachine
