import RegisterMachine.CommandLine.FileTree
import RegisterMachine.CommandLine.Settings
import RegisterMachine.CommandLine.Usage
import RegisterMachine.Report.Log
import RegisterMachine.Report.Trace

/-!
# Replies

What the program writes and the exit code it ends with, as a function of its
arguments and of the files it can read.

**Contents.**
* `Reply`: exit code, standard output and standard error.
* `Escape`: why there may be no reply at all.
* `source`: the source text that the settings ask for, with the banner line that
  announces it.
* `runReply`: the reply once a program is loaded and its run has come to a stop.
* `respond`: the reply to the arguments.
-/

namespace RegisterMachine
namespace CommandLine

/-- What the program answers. -/
structure Reply where
  exit : Nat
  stdout : String := ""
  stderr : String := ""
deriving DecidableEq, Repr

/-- The exit codes. -/
inductive Exit
  | success
  | noResult
  | error
deriving DecidableEq, Repr

/-- The number of an exit code. -/
def Exit.code : Exit → Nat
  | .success => 0
  | .noResult => 1
  | .error => 2

/-- A reply that reports lines on standard output. -/
def said (exit : Exit) (lines : List String) : Reply where
  exit := exit.code
  stdout := Report.printed lines

/-- The reply to a wrong call. -/
def usageReply (e : UsageError) : Reply where
  exit := Exit.error.code
  stderr := Report.printed (usage ++ [s!"main.py: error: {e.message}"])

/-- The reply when there are no settings. -/
def stopReply : Stop → Reply
  | .help => said .success help
  | .usage e => usageReply e

/-- A source text and the line that announces it. -/
structure Source where
  banner : String
  text : Text
deriving DecidableEq, Repr

/-- Why the program breaks off without a reply. -/
inductive Escape
  | numeral (error : TooLong)
  | file (error : FileError)
  | limit (error : Unshowable)
deriving DecidableEq, Repr

/-- The reason in words. -/
def Escape.message : Escape → String
  | .numeral error => error.message
  | .file error => error.message
  | .limit error => error.message

/-- The source text that the settings ask for, `none` if it is in a file that does
not exist; a file comes before text given inline. -/
def source (files : Text → Found) (s : Settings) : Except FileError (Option Source) :=
  let path := s.program.getD []
  if path = [] then
    .ok (some ⟨"Running inline assembly", Text.expandBreaks (s.inline.getD [])⟩)
  else
    ((files path).content? path).map fun content? =>
      content?.map fun content =>
        ⟨s!"Loading program: {path.str}", Text.unifyNewlines content⟩

/-- The reply when the file that was asked for does not exist. -/
def notFoundReply (s : Settings) : Reply :=
  said .error [s!"Error: Program file not found: {(s.program.getD []).str}"]

/-- Lines that only appear when the program is not asked to be quiet. -/
def aloud (s : Settings) (lines : List String) : List String :=
  if s.quiet then [] else lines

/-- The line that separates the parts of the output. -/
def divider : String := Report.rule 60 '-'

/-- The word for a truth value. -/
def truth (b : Bool) : String :=
  if b then "True" else "False"

/-- The complaint about a run that was broken off. -/
def abortLines : Option Abort → List String
  | none => []
  | some (.exhausted most) => [s!"Execution stopped: {(Abort.exhausted most).message}"]
  | some (.failed failure) => [s!"Execution error: {failure.message}"]

/-- The summary of a session in a few lines. -/
def summaryLines (m : Summary) : List String :=
  ["", s!"Cycles: {Numeral.str m.cycles}", s!"Terminated: {truth m.terminated}",
    s!"Registers: {Report.registers m.registers}"]
    ++ (if m.abort.isSome then [s!"Partial output: {m.output.quoted.str}"] else [])

/-- The account of a session: its trace if that was asked for, else a summary. -/
def accountLines (s : Settings) (session : Session) : List String :=
  if s.trace then Report.trace session else aloud s (summaryLines session.summary)

/-- The result of a session, if it has one. -/
def resultLines (s : Settings) (session : Session) : List String :=
  match session.result with
  | some output => aloud s ["Output:"] ++ [output.str]
  | none =>
      if session.abort.isSome then []
      else aloud s ["No result: program ended without END"]

/-- The exit code for a session. -/
def exitOf (session : Session) : Exit :=
  if session.abort.isSome then .error
  else if session.result.isSome then .success
  else .noResult

/-- The log lines that are shown. -/
def logLines (s : Settings) (records : List Log.Record) : List String :=
  (records.filter fun r => s.verbose || r.level == .warning).map Log.Record.line

/-- The reply about a run that is over. -/
def overReply (s : Settings) (banner : String) (p : Program) (r : Run) : Reply :=
  let session : Session := { limit := s.limit, recording := s.trace, current := some r }
  { exit := (exitOf session).code
    stdout :=
      Report.printed
        (aloud s [banner] ++ aloud s [divider, "Executing...", divider]
          ++ abortLines session.abort ++ accountLines s session ++ resultLines s session)
    stderr := Report.printed (logLines s (Log.loaded p :: Log.ran s.limit r)) }

/-- The reply once a program is loaded and its run has come to a stop. -/
def runReply (s : Settings) (banner : String) (p : Program) (r : Run) :
    Except Escape Reply :=
  match r.outcome with
  | .escaped error => .error (.limit error)
  | _ => .ok (overReply s banner p r)

/-- The reply to settings and the source text they ask for; `none` if the run has
no limit and did not end with the given fuel. -/
def sourceReply (fuel : Nat) (s : Settings) (given : Source) : Except Escape (Option Reply) :=
  match Program.ofSource given.text with
  | .error (.numeral e) => .error (.numeral e)
  | .error (.parse e) =>
      .ok (some (said .error (aloud s [given.banner] ++ [s!"Parse error: {e.message}"])))
  | .ok p =>
      match p.run? s.limit s.trace fuel with
      | none => .ok none
      | some r => (runReply s given.banner p r).map some

/-- The reply to settings, with the same proviso. -/
def execute (files : Text → Found) (fuel : Nat) (s : Settings) :
    Except Escape (Option Reply) :=
  match source files s with
  | .error e => .error (.file e)
  | .ok none => .ok (some (notFoundReply s))
  | .ok (some given) => sourceReply fuel s given

/-- The reply to arguments, with the same proviso. -/
def respond (files : Text → Found) (fuel : Nat) (arguments : List Text) :
    Except Escape (Option Reply) :=
  match Settings.ofArguments arguments with
  | .error stop => .ok (some (stopReply stop))
  | .ok s => execute files fuel s

end CommandLine
end RegisterMachine
