import RegisterMachine.Session

/-!
# Register changes

What an entry of a trace did to the registers, and how tables of registers are
shown.

**Contents.**
* `Change`, `Entry.changes`: the registers that an instruction wrote a new value
  to, in the order of names.
* `Report.registers`: a table of registers on one line.
* `Report.printed`: lines of a report, each ended by a newline.
-/

namespace RegisterMachine

/-- A register whose value is new; `before` is its value until then, if it had one. -/
structure Change where
  name : Text
  before : Option Int
  after : Int
deriving DecidableEq, Repr

namespace Change

/-- The value of a register before a change. -/
def oldValue : Option Int → String
  | none => "unset"
  | some n => Numeral.str n

/-- The change with an arrow between the old and the new value. -/
def display (arrow : String) (c : Change) : String :=
  s!"{c.name.str}: {oldValue c.before} {arrow} {Numeral.str c.after}"

end Change

namespace Entry

/-- The machine before an instruction; an unrecorded one is taken to be initial. -/
def before (e : Entry) : Machine :=
  (e.states.map Prod.fst).getD {}

/-- The machine after an instruction; an unrecorded one is taken to be initial. -/
def after (e : Entry) : Machine :=
  (e.states.map Prod.snd).getD {}

/-- The change of one register between two tables. -/
def changeOf (old : Table Int) (entry : Text × Int) : Option Change :=
  if old.get? entry.1 = some entry.2 then none
  else some { name := entry.1, before := old.get? entry.1, after := entry.2 }

/-- The registers that an instruction gave a new value, in the order of names. -/
def changes (e : Entry) : List Change :=
  e.after.registers.ordered.filterMap (changeOf e.before.registers)

/-- The operation and the operands of an instruction. -/
def decoded (e : Entry) : String :=
  s!"{e.mnemonic.str} {(Text.joined e.operands).str}"

end Entry

namespace Report

/-- The changes on one line. -/
def changeList (arrow : String) (cs : List Change) : String :=
  ", ".intercalate (cs.map (Change.display arrow))

/-- A register and its value in a table. -/
def binding (entry : Text × Int) : String :=
  s!"{entry.1.quoted.str}: {Numeral.str entry.2}"

/-- A table of registers on one line, between braces. -/
def registers (t : Table Int) : String :=
  "\x7b" ++ ", ".intercalate (t.map binding) ++ "\x7d"

/-- An output in its quoted form, or the word for none. -/
def quotedOutput : Option Text → String
  | none => "None"
  | some t => t.quoted.str

/-- A line of one repeated character. -/
def rule (width : Nat) (c : Char) : String :=
  String.ofList (List.replicate width c)

/-- Lines of a report, each ended by a newline. -/
def printed (lines : List String) : String :=
  String.join (lines.map (· ++ "\n"))

end Report
end RegisterMachine
