import RegisterMachine.Action

/-!
# Runs

A run takes a program from its first line to one of three ends: the program ends
itself, the program counter moves past the last line, or the run is broken off
by a failing instruction or by the limit on executed instructions.  A limit that is
too long to be shown leaves a run without an end: the error about it cannot be made,
and every step at the spent limit raises another error, of which the run takes no note.

**Contents.**
* `Abort`, `Outcome`: why a run was broken off, and how it ended.
* `Abort.ofLimit`: the error about a spent limit, if it can be made.
* `Entry`: the record of one executed instruction.
* `Run.step`: one instruction, or the reason why there is none to execute.
* `Run.proceed`: a bounded number of steps; a run that is over stays as it is.
* `Program.runWithin`, `Program.run?`: a whole run.  With a limit it always ends;
  without one it may need more fuel than it is given.
* `runSource?`: the whole run of a source text.
-/

namespace RegisterMachine

/-- Why a run was broken off. -/
inductive Abort
  | failed (failure : Failure)
  | exhausted (limit : Int)
deriving DecidableEq, Repr

namespace Abort

/-- The error that is reported for a run that was broken off. -/
def error : Abort → Error
  | .failed failure => .execution failure
  | .exhausted limit => .budget limit

/-- Why the run was broken off, in words. -/
def message (a : Abort) : String :=
  a.error.message

/-- What a spent limit breaks a run off with.  The error shows the limit, so that there is
none for a limit that is too long to be shown. -/
def ofLimit (most : Int) : Except Unshowable Abort :=
  (Numeral.shown most).map fun _ => .exhausted most

theorem ofLimit_of_isShowable {most : Int} (h : Numeral.isShowable most = true) :
    ofLimit most = .ok (.exhausted most) := by
  rw [ofLimit, Numeral.shown_of_isShowable h]
  rfl

theorem ofLimit_of_not_isShowable {most : Int} (h : Numeral.isShowable most = false) :
    ofLimit most = .error {} := by
  rw [ofLimit, Numeral.shown_of_not_isShowable h]
  rfl

end Abort

/-- The record of one instruction: its number and line, its text, operation and operands as
they are shown, its failure if it failed, and, where states are being recorded, the machine
before and after it. -/
structure Entry where
  cycle : Nat
  line : Int
  instruction : Instruction
  text : Text
  mnemonic : Text
  operands : List Text
  failure : Option Failure := none
  states : Option (Machine × Machine) := none
deriving DecidableEq, Repr

/-- A use of a run that makes no sense. -/
inductive Misuse
  | notLoaded
  | aborted (cause : Abort)
  | finished
deriving DecidableEq, Repr

namespace Misuse

/-- The misuse in words. -/
def message : Misuse → String
  | .notLoaded => "No program loaded"
  | .aborted cause => s!"Run aborted: {cause.message}"
  | .finished => "Program has finished"

end Misuse

/-- What one step of a run did.  An error that the run takes no note of escapes it. -/
inductive Progress
  | executed (entry : Entry)
  | ranOff
  | aborted (cause : Abort)
  | refused (misuse : Misuse)
  | escaped (error : Unshowable)
deriving DecidableEq, Repr

/-- How a run ended, or that an error escaped it which did not end it. -/
inductive Outcome
  | finished (output : Text)
  | ranOff
  | aborted (cause : Abort)
  | escaped (error : Unshowable)
deriving DecidableEq, Repr

/-- How a machine that has finished has ended, by its result. -/
def Outcome.ofResult : Option Text → Outcome
  | some output => .finished output
  | none => .ranOff

/-- A run: the machine so far, the recorded entries with the latest first, and
the reason if the run was broken off. -/
structure Run where
  program : Program
  machine : Machine := {}
  history : List Entry := []
  abort : Option Abort := none
deriving DecidableEq, Repr

namespace Run

/-- The run that has not begun. -/
def start (p : Program) : Run :=
  { program := p }

/-- The recorded entries in the order of execution. -/
def trace (r : Run) : List Entry :=
  r.history.reverse

/-- Whether nothing is left to do. -/
def isOver (r : Run) : Bool :=
  r.abort.isSome || r.machine.finished r.program

/-- The limit, if it leaves no room for another instruction. -/
def spent? (limit : Option Int) (cycles : Nat) : Option Int :=
  limit.filter fun most => most ≤ cycles

/-- The failure of an attempt at an instruction on a machine. -/
def failureOf (i : Instruction) (ready : Machine) (a : Attempt) : Option Failure :=
  a.fault.map fun fault =>
    { fault, line := some ready.pc, source := some i.text, output := a.machine.output }

/-- The record of an attempt at an instruction on a machine. -/
def entryOf (recording : Bool) (i : Instruction) (ready : Machine) (a : Attempt) : Entry where
  cycle := ready.cycles
  line := ready.pc
  instruction := i
  text := i.text
  mnemonic := i.opcode.mnemonic
  operands := i.operands.map Operand.write
  failure := failureOf i ready a
  states := if recording then some (ready, a.machine) else none

/-- The run after an attempt at an instruction on a machine. -/
def attempted (recording : Bool) (i : Instruction) (ready : Machine) (r : Run) :
    Progress × Run :=
  let a := i.execute r.program ready
  let entry := entryOf recording i ready a
  let after :=
    { r with
      machine := a.machine
      history := if recording then entry :: r.history else r.history
      abort := entry.failure.map .failed }
  match entry.failure with
  | none => (.executed entry, after)
  | some failure => (.aborted (.failed failure), after)

/-- The run that stands at an instruction with its limit spent. -/
def exhausted (most : Int) (ready : Machine) (r : Run) : Progress × Run :=
  match Abort.ofLimit most with
  | .ok cause => (.aborted cause, { r with machine := ready, abort := some cause })
  | .error error => (.escaped error, { r with machine := ready })

/-- One step: moves over lines that have nothing to execute, and attempts the
next instruction unless the limit is spent. -/
def step (limit : Option Int) (recording : Bool) (r : Run) : Progress × Run :=
  match r.abort with
  | some cause => (.refused (.aborted cause), r)
  | none =>
      if r.machine.finished r.program then (.refused .finished, r)
      else
        let ready := r.machine.settle r.program
        match r.program.instructionAt? ready.pc with
        | none => (.ranOff, { r with machine := ready })
        | some i =>
            match spent? limit ready.cycles with
            | some most => exhausted most ready r
            | none => attempted recording i ready r

/-- At most the given number of steps, until the run is over. -/
def proceed (limit : Option Int) (recording : Bool) : Nat → Run → Run
  | 0, r => r
  | n + 1, r => if r.isOver then r else proceed limit recording n (r.step limit recording).2

/-- How a run ended that has come to a stop.  One that is not over was left by an error that
it took no note of, which only a limit that cannot be shown brings about. -/
def outcome (r : Run) : Outcome :=
  match r.abort with
  | some cause => .aborted cause
  | none =>
      if r.machine.finished r.program then .ofResult r.machine.result else .escaped {}

end Run

namespace Program

/-- The whole run of a program under a limit; one step more than the limit allows
instructions is enough. -/
def runWithin (p : Program) (most : Int) (recording : Bool) : Run :=
  (Run.start p).proceed (some most) recording (most.toNat + 1)

/-- The whole run of a program; `none` if there is no limit and the run did not
end with the given fuel. -/
def run? (p : Program) (limit : Option Int) (recording : Bool) (fuel : Nat) : Option Run :=
  match limit with
  | some most => some (p.runWithin most recording)
  | none =>
      let r := (Run.start p).proceed none recording fuel
      if r.isOver then some r else none

end Program

/-- Reads and runs a source text without recording; `none` if the run did not end
with the given fuel. -/
def runSource? (source : Text) (limit : Option Int) (fuel : Nat) :
    Except LoadError (Option Run) :=
  (Program.ofSource source).map fun p => p.run? limit false fuel

namespace Run

@[simp] theorem proceed_zero (limit : Option Int) (recording : Bool) (r : Run) :
    r.proceed limit recording 0 = r := by
  rfl

/-- A run that is over stays as it is. -/
theorem proceed_of_isOver {limit : Option Int} {recording : Bool} {r : Run}
    (h : r.isOver = true) (n : Nat) : r.proceed limit recording n = r := by
  cases n with
  | zero =>
      rfl
  | succ n =>
      simp [proceed, h]

end Run
end RegisterMachine
