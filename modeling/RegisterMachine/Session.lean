import RegisterMachine.Run

/-!
# Sessions

A session holds at most one run at a time, together with the settings under
which it goes on: the limit on executed instructions and whether the machine is
recorded before and after each of them.

**Contents.**
* `Session.load`, `Session.install`, `Session.reset`: a fresh run.
* `Session.step`, `Session.run`: one instruction, or a whole run from the start.
* The questions that can be asked of a session at any time.
* `Summary`: the answers to all of them.
-/

namespace RegisterMachine

/-- The settings of a session and its current run. -/
structure Session where
  limit : Option Int := none
  recording : Bool := false
  current : Option Run := none
deriving DecidableEq, Repr

namespace Session

/-- Takes up a program; its run has not begun. -/
def install (s : Session) (p : Program) : Session :=
  { s with current := some (Run.start p) }

/-- Takes up the program of a source text. -/
def load (s : Session) (source : Text) : Except LoadError Session :=
  (Program.ofSource source).map s.install

/-- The current run. -/
def loaded (s : Session) : Except Misuse Run :=
  match s.current with
  | some r => .ok r
  | none => .error .notLoaded

/-- The machine of the current run. -/
def machine (s : Session) : Except Misuse Machine :=
  s.loaded.map Run.machine

/-- Starts the current program afresh. -/
def reset (s : Session) : Except Misuse Session :=
  s.loaded.map fun r => s.install r.program

/-- Takes one step of the current run. -/
def step (s : Session) : Progress × Session :=
  match s.current with
  | none => (.refused .notLoaded, s)
  | some r =>
      let (progress, after) := r.step s.limit s.recording
      (progress, { s with current := some after })

/-- Runs the current program from the start, under a limit of its own if one is
given; `none` if the run did not end with the given fuel. -/
def run (s : Session) (override : Option Int) (fuel : Nat) :
    Except Misuse (Option Session) :=
  s.loaded.map fun r =>
    (r.program.run? (override.or s.limit) s.recording fuel).map fun after =>
      { s with current := some after }

/-- The result of the current run, once its program has ended itself. -/
def result (s : Session) : Option Text :=
  s.current.bind fun r => r.machine.result

/-- The reason why the current run was broken off. -/
def abort (s : Session) : Option Abort :=
  s.current.bind Run.abort

/-- Whether there is nothing to go on with, short of running past the last line. -/
def halted (s : Session) : Bool :=
  match s.current with
  | none => true
  | some r => r.machine.halted || r.abort.isSome

/-- The recorded entries of the current run. -/
def trace (s : Session) : List Entry :=
  (s.current.map Run.trace).getD []

end Session

/-- What there is to say about a session. -/
structure Summary where
  cycles : Nat := 0
  halted : Bool := true
  result : Option Text := none
  output : Text := []
  registers : Table Int := []
  pc : Int := 0
  callDepth : Nat := 0
  traceLength : Nat := 0
  abort : Option Abort := none
deriving DecidableEq, Repr

namespace Summary

/-- Whether the program has ended itself. -/
def terminated (s : Summary) : Bool :=
  s.result.isSome

end Summary

namespace Session

/-- The summary of a session. -/
def summary (s : Session) : Summary :=
  match s.current with
  | none => {}
  | some r =>
      { cycles := r.machine.cycles
        halted := s.halted
        result := r.machine.result
        output := r.machine.output
        registers := r.machine.registers
        pc := r.machine.pc
        callDepth := r.machine.callStack.length
        traceLength := r.history.length
        abort := r.abort }

end Session
end RegisterMachine
