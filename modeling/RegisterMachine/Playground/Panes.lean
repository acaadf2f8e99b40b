import RegisterMachine.Report.Change

/-!
# The playground

A program is run under a limit and shown in four panes: its output, a summary,
the beginning of its trace, and its registers.

**Contents.**
* `Playground.Panes`: the four texts.
* `Playground.Escape`: why there may be no panes at all.
* `Playground.tracePane`: the text about a trace, from its lines.
* `Playground.view`: the panes for a source text.
-/

namespace RegisterMachine
namespace Playground

/-- The texts of the four panes. -/
structure Panes where
  output : String := ""
  summary : String := ""
  trace : String := ""
  registers : String := ""
deriving DecidableEq, Repr

/-- Why the program breaks off without panes. -/
inductive Escape
  | numeral (error : TooLong)
  | limit (error : Unshowable)
deriving DecidableEq, Repr

/-- The reason in words. -/
def Escape.message : Escape → String
  | .numeral error => error.message
  | .limit error => error.message

/-- The number of entries that the trace pane shows. -/
def traceLimit : Nat := 100

/-- The lines of a pane as one text. -/
def pane (lines : List String) : String :=
  "\n".intercalate lines

/-- Why a run was broken off, as the summary says it. -/
def abortNote : Abort → String
  | .exhausted most => s!"Stopped: {(Abort.exhausted most).message}"
  | .failed failure => s!"Error: {failure.message}"

/-- The output pane. -/
def outputPane (m : Summary) : String :=
  match m.result, m.abort with
  | some output, _ => output.str
  | none, some _ => s!"(no result; partial output: {m.output.quoted.str})"
  | none, none => "(no result: the program ran off its last line without END)"

/-- The summary pane. -/
def summaryPane (m : Summary) : String :=
  let reached := if m.terminated then "Yes" else "No"
  pane
    (["EXECUTION SUMMARY", Report.rule 40 '=', s!"Cycles: {Numeral.str m.cycles}",
      s!"Reached END: {reached}", s!"Final PC: {Numeral.str m.pc}",
      s!"Call depth: {Numeral.str m.callDepth}"]
      ++ (m.abort.map fun cause => ["", abortNote cause]).getD [])

/-- The lines of the trace pane about changed registers. -/
def changeLines (e : Entry) : List String :=
  if e.changes = [] then []
  else ["Changes:     " ++ Report.changeList "->" e.changes]

/-- The lines of the trace pane about a failure. -/
def failureLines (e : Entry) : List String :=
  (e.failure.map fun failure => [s!"Error:       {failure.message}"]).getD []

/-- The lines of the trace pane about one entry. -/
def entryLines (e : Entry) : List String :=
  ["", s!"--- Cycle {Numeral.str e.cycle} (line {Numeral.str e.line}) ---",
    s!"Instruction: {e.text.str}", s!"Decoded:     {e.decoded}"]
    ++ changeLines e ++ failureLines e

/-- The line about entries that are not shown. -/
def omittedLines (count : Nat) : List String :=
  if traceLimit < count then
    ["", s!"... ({Numeral.str (count - traceLimit)} more entries)"]
  else []

/-- The lines of the trace pane. -/
def traceLines (trace : List Entry) : List String :=
  ["EXECUTION TRACE", Report.rule 60 '='] ++ (trace.take traceLimit).flatMap entryLines
    ++ omittedLines trace.length

/-- The trace pane. -/
def tracePane (trace : List Entry) : String :=
  pane (traceLines trace)

/-- The line of the register pane about one register. -/
def registerLine (entry : Text × Int) : String :=
  s!"  {entry.1.str}: {(Text.padLeft 12 (Numeral.write entry.2)).str}"

/-- The register pane. -/
def registerPane (t : Table Int) : String :=
  let lines := if t = [] then ["  (none written)"] else t.ordered.map registerLine
  pane (["FINAL REGISTERS", Report.rule 30 '='] ++ lines)

/-- The panes for a session. -/
def panes (s : Session) : Panes :=
  let m := s.summary
  { output := outputPane m
    summary := summaryPane m
    trace := tracePane s.trace
    registers := registerPane m.registers }

/-- The panes that only say what is wrong. -/
def refusal (message : String) : Panes :=
  { summary := message }

/-- The panes once a program is loaded and its run has come to a stop. -/
def runPanes (most : Int) (r : Run) : Except Escape Panes :=
  match r.outcome with
  | .escaped error => .error (.limit error)
  | _ => .ok (panes { limit := some most, recording := true, current := some r })

/-- The panes for a source text that is run under a limit. -/
def view (source : Text) (most : Int) : Except Escape Panes :=
  if Text.trim source = [] then .ok (refusal "Error: No program provided")
  else
    match Program.ofSource source with
    | .error (.numeral e) => .error (.numeral e)
    | .error (.parse e) => .ok (refusal s!"Parse error: {e.message}")
    | .ok p => runPanes most (p.runWithin most true)

end Playground
end RegisterMachine
