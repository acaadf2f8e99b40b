import RegisterMachine.Fault
import RegisterMachine.Instruction
import RegisterMachine.Table

/-!
# Programs

A program keeps every line of its source in place, so that a label is bound to
the index of the line that defines it.

**Contents.**
* `Line`: a blank line, a label definition or an instruction.
* `Program`: the lines and the label table.
* `Program.numbered`: the lines with the indices that they have in their source.
* `Program.write`: the plainest source text of a program.
* `Program.ofSource`: reading; it fails on a label that is defined twice and on a
  numeral that is too long, whichever line comes first.
-/

namespace RegisterMachine

/-- What one line of source holds. -/
inductive Line
  | blank
  | label (name : Text)
  | instruction (i : Instruction)
deriving DecidableEq, Repr

namespace Line

/-- The instruction on a line. -/
def instruction? : Line → Option Instruction
  | .instruction i => some i
  | _ => none

/-- The label that a line defines. -/
def label? : Line → Option Text
  | .label name => some name
  | _ => none

/-- Whether a line has nothing to execute. -/
def isNoop (l : Line) : Bool :=
  l.instruction?.isNone

/-- The plainest source text of a line. -/
def write : Line → Text
  | .blank => []
  | .label name => name ++ [':']
  | .instruction i => i.text

/-- Whether a label may begin with a character. -/
def beginsLabel (c : Char) : Bool :=
  c.isAlpha || c == '_'

/-- Whether a label may go on with a character. -/
def continuesLabel (c : Char) : Bool :=
  c.isAlphanum || c == '_'

/-- Whether a text is a label name: an ASCII identifier. -/
def isLabelName : Text → Bool
  | [] => false
  | c :: cs => beginsLabel c && cs.all continuesLabel

/-- The name in a label definition, which is a label name before a colon. -/
def definedLabel? (t : Text) : Option Text :=
  if t.getLast? = some ':' ∧ isLabelName t.dropLast then some t.dropLast else none

/-- What a text without comment and surrounding blanks holds. -/
def ofStripped (t : Text) : Except TooLong Line :=
  if t = [] then .ok .blank
  else
    match definedLabel? t with
    | some name => .ok (.label name)
    | none => (Instruction.ofText t).map .instruction

/-- What a line of source holds. -/
def ofText (raw : Text) : Except TooLong Line :=
  ofStripped (Text.trim (Token.uncomment raw))

end Line

/-- Why a source text cannot be loaded. -/
inductive LoadError
  | parse (error : ParseError)
  | numeral (error : TooLong)
deriving DecidableEq, Repr

namespace LoadError

/-- The error in words. -/
def message : LoadError → String
  | .parse error => error.message
  | .numeral error => error.message

end LoadError

/-- Why an index leads to no line. -/
inductive BadIndex
  | outOfRange
  | tooLarge
deriving DecidableEq, Repr

/-- The reason in words. -/
def BadIndex.message : BadIndex → String
  | .outOfRange => "tuple index out of range"
  | .tooLarge => "cannot fit \x27int\x27 into an index-sized integer"

/-- A program: its lines, and the label table in the order of definition. -/
structure Program where
  lines : List Line := []
  labels : Table Nat := []
deriving DecidableEq, Repr

/-- A line with the index that it has in its source. -/
structure NumberedLine where
  index : Nat
  content : Line
deriving DecidableEq, Repr

namespace Program

/-- The number of lines. -/
def size (p : Program) : Nat :=
  p.lines.length

/-- The lines with their indices. -/
def numbered (p : Program) : List NumberedLine :=
  p.lines.zipIdx.map fun entry => { index := entry.2, content := entry.1 }

/-- The label table after a line at an index; a label has one definition. -/
def define (index : Nat) (labels : Table Nat) : Line → Except ParseError (Table Nat)
  | .label name =>
      match labels.get? name with
      | some first => .error (.duplicateLabel name first index)
      | none => .ok (labels ++ [(name, index)])
  | _ => .ok labels

/-- Reads the lines of a source from an index on, with the labels known so far. -/
def ofLines (index : Nat) (labels : Table Nat) : List Text → Except LoadError Program
  | [] => .ok { lines := [], labels }
  | raw :: rest =>
      match Line.ofText raw with
      | .error e => .error (.numeral e)
      | .ok line =>
          match define index labels line with
          | .error e => .error (.parse e)
          | .ok labels =>
              (ofLines (index + 1) labels rest).map fun p =>
                { p with lines := line :: p.lines }

/-- The program that a source text denotes. -/
def ofSource (source : Text) : Except LoadError Program :=
  ofLines 0 [] source.lines

/-- The plainest source text of a program. -/
def write (p : Program) : Text :=
  Text.unlines (p.lines.map Line.write)

/-- The instructions in the order of their lines. -/
def instructions (p : Program) : List Instruction :=
  p.lines.filterMap Line.instruction?

/-- The instruction at a position; there is none on a blank or label line. -/
def instructionAt? (p : Program) (pc : Int) : Option Instruction :=
  p.lines[pc.toNat]?.bind Line.instruction?

/-- The line that a label is bound to. -/
def resolve (p : Program) (name : Text) : Except Fault Nat :=
  match p.labels.get? name with
  | some index => .ok index
  | none => .error (.undefinedLabel name)

/-- The indices that can be asked for at all are those of a machine word of 64
bits. -/
def isIndex (index : Int) : Bool :=
  -9223372036854775808 ≤ index && index < 9223372036854775808

/-- The place of a line given by an index; a negative index counts from the end. -/
def position (p : Program) (index : Int) : Except BadIndex Nat :=
  let place := if index < 0 then index + p.size else index
  if !isIndex index then .error .tooLarge
  else if 0 ≤ place ∧ place < p.size then .ok place.toNat
  else .error .outOfRange

/-- Every line stands at its own index. -/
theorem getElem?_numbered (p : Program) (n : Nat) :
    p.numbered[n]? = p.lines[n]?.map fun content => { index := n, content } := by
  cases h : p.lines[n]? <;> simp [numbered, h]

end Program
end RegisterMachine
