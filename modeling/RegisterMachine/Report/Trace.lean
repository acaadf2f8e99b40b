import RegisterMachine.Report.Change

/-!
# Trace reports

The recorded entries of a session one by one, each with the registers it changed
and the jump it made, and then the state that the session is in.

**Contents.**
* `Report.changes`: the registers that are new after an instruction, and those
  with another value than before.
* `Report.entry`: the lines about one entry.
* `Report.finalState`: the lines about a machine.
* `Report.trace`: the whole report.
-/

namespace RegisterMachine
namespace Report

/-- A title between two rules. -/
def title (words : String) : List String :=
  [rule 70 '=', words, rule 70 '=']

/-- Whether an entry went well, in words. -/
def status (e : Entry) : String :=
  match e.failure with
  | none => "OK"
  | some failure => s!"ERROR: {failure.message}"

/-- The change of one register, which is either new or has a value to compare with. -/
def changeOf (old : Table Int) (entry : Text × Int) : Option Change :=
  match old.get? entry.1 with
  | none => some { name := entry.1, before := none, after := entry.2 }
  | some value =>
      if value = entry.2 then none
      else some { name := entry.1, before := some value, after := entry.2 }

/-- The changes that the report tells of, in the order of names. -/
def changes (e : Entry) : List Change :=
  e.after.registers.ordered.filterMap (changeOf e.before.registers)

/-- The line about changed registers, if there are any. -/
def changeLine (e : Entry) : List String :=
  if changes e = [] then []
  else ["  Changes: " ++ changeList "→" (changes e)]

/-- The line about a jump: the program goes on, but not at the next line. -/
def jumpLine (e : Entry) : List String :=
  if e.after.pc = e.before.pc + 1 ∨ e.after.halted then []
  else [s!"  PC: {Numeral.str e.before.pc} → {Numeral.str e.after.pc}"]

/-- The lines about one entry. -/
def entry (e : Entry) : List String :=
  ["", s!"[Cycle {Numeral.str e.cycle}] line {Numeral.str e.line} {status e}",
    s!"  Instruction: {e.text.str}", s!"  Decoded: {e.decoded}"]
    ++ changeLine e ++ jumpLine e

/-- The lines about a machine. -/
def finalState (m : Machine) : List String :=
  [s!"  Registers: {registers m.registers}", s!"  PC: {Numeral.str m.pc}",
    s!"  Cycles: {Numeral.str m.cycles}", s!"  Output: {quotedOutput m.result}"]

/-- The report on the trace of a session. -/
def trace (s : Session) : List String :=
  title "REGASM EXECUTION TRACE" ++ s.trace.flatMap entry
    ++ "" :: title "FINAL STATE"
    ++ (s.current.map fun r => finalState r.machine).getD []

end Report
end RegisterMachine
