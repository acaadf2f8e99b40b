import RegisterMachine.Program

/-!
# The machine

**Contents.**
* `Transcript`: the output written so far, to which text is only ever added.
* `Machine`: registers, program counter, call stack, the last comparison, the
  transcript, the result once the program has ended, whether it has, and the
  number of instructions executed.
* The elementary operations on a machine.
* `Machine.display`: one line that shows a machine; `Machine.display?` refuses a
  machine with an integer in it that is too long to be shown.
-/

namespace RegisterMachine

/-- The output of a run, kept with its last character first. -/
structure Transcript where
  reversed : Text := []
deriving DecidableEq, Repr

namespace Transcript

/-- The output in the order it was written. -/
def text (t : Transcript) : Text :=
  t.reversed.reverse

/-- Writes a text behind the output. -/
def append (t : Transcript) (s : Text) : Transcript :=
  ⟨s.reverseAux t.reversed⟩

/-- The number of characters written. -/
def length (t : Transcript) : Nat :=
  t.reversed.length

@[simp] theorem text_append (t : Transcript) (s : Text) :
    (t.append s).text = t.text ++ s := by
  simp [append, text, List.reverseAux_eq]

end Transcript

/-- The state of a run.  The call stack has the innermost call first; a call is
remembered by the index of its own line. -/
structure Machine where
  registers : Table Int := []
  pc : Int := 0
  callStack : List Int := []
  comparison : Option (Int × Int) := none
  transcript : Transcript := {}
  result : Option Text := none
  halted : Bool := false
  cycles : Nat := 0
deriving DecidableEq, Repr

namespace Machine

/-- The output written so far. -/
def output (m : Machine) : Text :=
  m.transcript.text

/-- Whether the program has ended itself or run past its last line. -/
def finished (p : Program) (m : Machine) : Bool :=
  m.halted || p.size ≤ m.pc

/-- The value of a register. -/
def read (m : Machine) (name : Text) : Except Fault Int :=
  match m.registers.get? name with
  | some value => .ok value
  | none => .error (.unsetRegister name)

/-- Writes a register; the value is wrapped to a word. -/
def set (m : Machine) (name : Text) (value : Int) : Machine :=
  { m with registers := m.registers.put name (Word.wrap value) }

/-- Remembers two values for the conditional jumps that follow. -/
def compare (m : Machine) (lhs rhs : Int) : Machine :=
  { m with comparison := some (lhs, rhs) }

/-- The remembered values, on behalf of the operation with the given mnemonic. -/
def compared (m : Machine) (mnemonic : Text) : Except Fault (Int × Int) :=
  match m.comparison with
  | some values => .ok values
  | none => .error (.noComparison mnemonic)

/-- Goes to a line. -/
def jump (m : Machine) (index : Int) : Machine :=
  { m with pc := index }

/-- Goes to the next line. -/
def advance (m : Machine) : Machine :=
  m.jump (m.pc + 1)

/-- Puts a line on the call stack. -/
def push (m : Machine) (index : Int) : Machine :=
  { m with callStack := index :: m.callStack }

/-- Takes the innermost line from the call stack. -/
def pop (m : Machine) : Except Fault (Int × Machine) :=
  match m.callStack with
  | index :: rest => .ok (index, { m with callStack := rest })
  | [] => .error .emptyCallStack

/-- Writes a text to the output. -/
def append (m : Machine) (s : Text) : Machine :=
  { m with transcript := m.transcript.append s }

/-- Ends the program: the output becomes its result. -/
def finish (m : Machine) : Machine :=
  { m with result := some m.output, halted := true }

/-- Counts one executed instruction. -/
def tick (m : Machine) : Machine :=
  { m with cycles := m.cycles + 1 }

/-- Moves over lines that have nothing to execute. -/
def settle (p : Program) (m : Machine) : Machine :=
  m.jump (m.pc + ((p.lines.drop m.pc.toNat).takeWhile Line.isNoop).length)

/-- A register as it is shown beside the others. -/
def displayRegister (entry : Text × Int) : Text :=
  entry.1 ++ '=' :: Numeral.write entry.2

/-- The remembered comparison as it is shown. -/
def displayComparison : Option (Int × Int) → Text
  | none => []
  | some (lhs, rhs) =>
      " CMP=(".toList ++ Numeral.write lhs ++ ',' :: Numeral.write rhs ++ [')']

/-- One line that shows the machine, with the registers in the order of names. -/
def display (m : Machine) : Text :=
  let registers := [' '].intercalate (m.registers.ordered.map displayRegister)
  Text.trimRight Text.isBlank
    ("[Cycle ".toList ++ Numeral.write m.cycles ++ "] PC=".toList ++ Numeral.write m.pc
      ++ ' ' :: registers ++ displayComparison m.comparison
      ++ ' ' :: (if m.halted then "HALTED".toList else []))

/-- The integers in the line that shows the machine. -/
def displayed (m : Machine) : List Int :=
  let compared := (m.comparison.map fun values => [values.1, values.2]).getD []
  (m.cycles : Int) :: m.pc :: (m.registers.map Prod.snd ++ compared)

/-- The line that shows the machine, unless one of its integers is too long. -/
def display? (m : Machine) : Except Unshowable Text :=
  if m.displayed.all Numeral.isShowable then .ok m.display else .error {}

/-- A register that is read has the value that is found. -/
theorem read_eq_ok {m : Machine} {name : Text} {value : Int} :
    m.read name = .ok value ↔ m.registers.get? name = some value := by
  unfold read
  cases m.registers.get? name <;> simp

@[simp] theorem output_append (m : Machine) (s : Text) :
    (m.append s).output = m.output ++ s := by
  simp [append, output]

end Machine
end RegisterMachine
