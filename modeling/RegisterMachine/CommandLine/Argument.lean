import RegisterMachine.Fault

/-!
# Arguments

How one argument of the command line reads: as an option, perhaps with a value
attached to it, or as a plain argument.

**Rules.**
* A long option may be shortened to any beginning that fits no other, and takes
  a value behind an equals sign.
* A short option takes a text that follows its letter at once; an equals sign in
  front of the text is dropped.
* A dash alone, a negative number, and an argument with a space in it that is no
  option are plain.

**Contents.**
* `Flag`: the options.
* `Argument.ofText`: the reading of one argument.
* `Argument.ofTexts`: the reading of all; a double dash makes the rest plain.
-/

namespace RegisterMachine
namespace CommandLine

/-- The options. -/
inductive Flag
  | help
  | program
  | inline
  | maxCycles
  | trace
  | quiet
  | verbose
deriving DecidableEq, Repr

namespace Flag

/-- All options, in the order they are listed. -/
def all : List Flag :=
  [.help, .program, .inline, .maxCycles, .trace, .quiet, .verbose]

/-- The long form of an option, without its dashes. -/
def word : Flag → String
  | .help => "help"
  | .program => "program"
  | .inline => "inline"
  | .maxCycles => "max-cycles"
  | .trace => "trace"
  | .quiet => "quiet"
  | .verbose => "verbose"

/-- The long form of an option. -/
def long (f : Flag) : Text :=
  '-' :: '-' :: f.word.toList

/-- The letter of the short form of an option. -/
def letter? : Flag → Option Char
  | .help => some 'h'
  | .program => some 'p'
  | .inline => some 'i'
  | .maxCycles => none
  | .trace => some 't'
  | .quiet => some 'q'
  | .verbose => some 'v'

/-- The option that a letter is short for. -/
def ofLetter? (c : Char) : Option Flag :=
  all.find? fun f => f.letter? == some c

/-- Whether an option takes a value. -/
def takesValue : Flag → Bool
  | .program => true
  | .inline => true
  | .maxCycles => true
  | _ => false

/-- The name of an option in messages. -/
def name : Flag → String
  | .help => "-h/--help"
  | .program => "--program/-p"
  | .inline => "--inline/-i"
  | .maxCycles => "--max-cycles"
  | .trace => "--trace/-t"
  | .quiet => "--quiet/-q"
  | .verbose => "--verbose/-v"

end Flag

/-- A complaint about how the program was called. -/
structure UsageError where
  message : String
deriving DecidableEq, Repr

/-- How an option is written. -/
inductive Form
  | short
  | long
deriving DecidableEq, Repr

/-- How an argument reads. -/
inductive Argument
  | plain
  | divider
  | option (flag : Flag) (form : Form) (value : Option Text)
  | unknown
deriving DecidableEq, Repr

namespace Argument

/-- The text before the first equals sign, and the text behind it. -/
def splitEquals : Text → Text × Option Text
  | [] => ([], none)
  | c :: cs =>
      if c = '=' then ([], some cs)
      else ((splitEquals cs).map (c :: ·) id)

/-- The option that a text spells in full. -/
def inFull? : Text → Option (Flag × Form)
  | ['-', c] => (Flag.ofLetter? c).map (·, .short)
  | t => (Flag.all.find? fun f => f.long == t).map (·, .long)

/-- The options that a text begins, in their long form. -/
def begun (t : Text) : List Flag :=
  Flag.all.filter fun f => t.isPrefixOf f.long

/-- Whether a text is digits, or digits on the right of a point. -/
def isUnsigned (t : Text) : Bool :=
  let whole := t.takeWhile (· ≠ '.')
  match t.drop whole.length with
  | [] => whole ≠ [] && whole.all Text.isDigit
  | _ :: fraction => whole.all Text.isDigit && fraction ≠ [] && fraction.all Text.isDigit

/-- Whether a text behind a dash makes a negative number; one newline may follow. -/
def isNegative (t : Text) : Bool :=
  isUnsigned (Numeral.dropFinalNewline t)

/-- The reading of a text that begins with a dash and spells no option. -/
def unspelled (rest : Text) : Argument :=
  if isNegative rest || ' ' ∈ rest then .plain else .unknown

/-- The complaint about a text that begins more than one option. -/
def ambiguous (t : Text) (flags : List Flag) : UsageError where
  message :=
    let options := (Text.joined (flags.map Flag.long)).str
    s!"ambiguous option: {t.str} could match {options}"

/-- The reading of a text with two dashes in front that spells no option in full. -/
def ofLong (t : Text) : Except UsageError Argument :=
  let (head, value) := splitEquals t
  match begun head with
  | [] => .ok (unspelled (t.drop 1))
  | [flag] => .ok (.option flag .long value)
  | flags => .error (ambiguous t flags)

/-- The reading of a text with one dash in front that spells no option in full. -/
def ofShort (letter : Char) (rest : Text) : Argument :=
  match Flag.ofLetter? letter with
  | some flag => .option flag .short (some rest)
  | none => unspelled (letter :: rest)

/-- The reading of a text with a dash in front that spells no option in full. -/
def ofDashed : Text → Except UsageError Argument
  | '-' :: '-' :: rest => ofLong ('-' :: '-' :: rest)
  | '-' :: letter :: rest => .ok (ofShort letter rest)
  | _ => .ok .plain

/-- The option that a text spells in full, with the value behind an equals sign. -/
def spelled? (t : Text) : Option Argument :=
  match inFull? t with
  | some (flag, form) => some (.option flag form none)
  | none =>
      match splitEquals t with
      | (_, none) => none
      | (head, some value) =>
          (inFull? head).map fun (flag, form) => .option flag form (some value)

/-- The reading of an argument. -/
def ofText (t : Text) : Except UsageError Argument :=
  match spelled? t with
  | some argument => .ok argument
  | none => ofDashed t

/-- The arguments with their readings; those behind a double dash are plain. -/
def ofTexts : List Text → Except UsageError (List (Text × Argument))
  | [] => .ok []
  | t :: rest =>
      if t = ['-', '-'] then .ok ((t, .divider) :: rest.map (·, .plain))
      else
        match ofText t with
        | .error e => .error e
        | .ok argument => (ofTexts rest).map ((t, argument) :: ·)

end Argument
end CommandLine
end RegisterMachine
