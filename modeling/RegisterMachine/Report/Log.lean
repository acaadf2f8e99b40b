import RegisterMachine.Run

/-!
# Log records

What is logged about loading and running a program: the size of the program, the
limit of the run, and how the run ended.  All of it can be told from the program
and from the run when it is over.

**Contents.**
* `Log.loaded`: the record about a program.
* `Log.ran`: the records about a run.
-/

namespace RegisterMachine
namespace Log

/-- How much a record matters. -/
inductive Level
  | debug
  | warning
deriving DecidableEq, Repr

/-- The name of a level. -/
def Level.name : Level → String
  | .debug => "DEBUG"
  | .warning => "WARNING"

/-- A log record. -/
structure Record where
  level : Level
  message : String
deriving DecidableEq, Repr

/-- The line that a record is written as. -/
def Record.line (r : Record) : String :=
  s!"{r.level.name}:regasm.engine:{r.message}"

/-- The record about a program that was loaded. -/
def loaded (p : Program) : Record where
  level := .debug
  message :=
    s!"Loaded program: {Numeral.str p.size} lines, "
      ++ s!"{Numeral.str p.instructions.length} instructions, "
      ++ s!"{Numeral.str p.labels.length} labels"

/-- A limit in words. -/
def limitName : Option Int → String
  | none => "None"
  | some most => Numeral.str most

/-- The record about how a run ended; there is none of an error that escaped it. -/
def ended (r : Run) : List Record :=
  let cycles := Numeral.str r.machine.cycles
  match r.outcome with
  | .finished _ => [⟨.debug, s!"Run finished after {cycles} cycles"⟩]
  | .ranOff =>
      [⟨.warning, s!"Program ran past its last line after {cycles} cycles without END"⟩]
  | .aborted (.exhausted most) =>
      [⟨.debug, s!"Run aborted after {cycles} cycles: {(Abort.exhausted most).message}"⟩]
  | .aborted (.failed failure) =>
      [⟨.debug, s!"Run aborted at line {Numeral.str r.machine.pc}: {failure.message}"⟩]
  | .escaped _ => []

/-- The records about a run under a limit. -/
def ran (limit : Option Int) (r : Run) : List Record :=
  ⟨.debug, s!"Run started (max_cycles={limitName limit})"⟩ :: ended r

end Log
end RegisterMachine
