import RegisterMachine.CommandLine.Argument

/-!
# Settings

The settings that the arguments of the command line ask for.

**Rules.**
* Short options without a value may share one dash; the last of them may take a
  value.
* An argument is understood as a whole before any of its options takes effect.
* A later option overrides an earlier one, and asking for help ends the reading.
* A double dash attached as a value takes the option back; without its limit a
  run has none.
* Arguments that belong to no option are refused in the end, all together.

**Contents.**
* `Group.ofOption`: the options that one argument holds.
* `Settings.ofArguments`: the settings, or what to do instead.
-/

namespace RegisterMachine
namespace CommandLine

/-- What follows the options without a value in one argument. -/
inductive Ending
  | nothing
  | value (flag : Flag) (text : Text)
  | wanting (flag : Flag)
deriving DecidableEq, Repr

/-- The options that one argument holds. -/
structure Group where
  flags : List Flag
  ending : Ending
deriving DecidableEq, Repr

namespace Group

/-- The complaint about a value attached to an option that takes none. -/
def ignored (flag : Flag) (value : Text) : UsageError where
  message := s!"argument {flag.name}: ignored explicit argument {value.quoted.str}"

/-- The group of a single option without an attached value. -/
def single (flag : Flag) : Group :=
  if flag.takesValue then ⟨[], .wanting flag⟩ else ⟨[flag], .nothing⟩

/-- The group with an option in front. -/
def cons (flag : Flag) (g : Group) : Group :=
  { g with flags := flag :: g.flags }

/-- The group of an option and the text attached to it.  Text attached to a short
option that takes no value holds the letters of further options. -/
def ofAttached (flag : Flag) (form : Form) : Text → Except UsageError Group
  | [] => if flag.takesValue then .ok ⟨[], .value flag []⟩ else .error (ignored flag [])
  | c :: cs =>
      if flag.takesValue then .ok ⟨[], .value flag (c :: cs)⟩
      else
        match form, Flag.ofLetter? c with
        | .short, some next =>
            if cs = [] then .ok ((single next).cons flag)
            else (ofAttached next .short cs).map (cons flag)
        | _, _ => .error (ignored flag (c :: cs))

/-- The options that one argument holds. -/
def ofOption (flag : Flag) (form : Form) : Option Text → Except UsageError Group
  | none => .ok (single flag)
  | some value => ofAttached flag form value

end Group

/-- What the program was asked to do. -/
structure Settings where
  program : Option Text := none
  inline : Option Text := none
  maxCycles : Int := 100000
  trace : Bool := false
  quiet : Bool := false
  verbose : Bool := false
deriving DecidableEq, Repr

/-- Why there are no settings. -/
inductive Stop
  | help
  | usage (error : UsageError)
deriving DecidableEq, Repr

namespace Settings

/-- The limit on executed instructions; zero stands for none. -/
def limit (s : Settings) : Option Int :=
  if s.maxCycles = 0 then none else some s.maxCycles

/-- The effect of an option without a value. -/
def turnOn (s : Settings) : Flag → Except Stop Settings
  | .help => .error .help
  | .trace => .ok { s with trace := true }
  | .quiet => .ok { s with quiet := true }
  | .verbose => .ok { s with verbose := true }
  | _ => .ok s

/-- The effect of an option whose value is taken back by a double dash: what it
asks for is not asked for. -/
def withdraw (s : Settings) : Flag → Settings
  | .program => { s with program := none }
  | .inline => { s with inline := none }
  | .maxCycles => { s with maxCycles := 0 }
  | _ => s

/-- The effect of an option with a value. -/
def assign (s : Settings) (value : Text) (flag : Flag) : Except Stop Settings :=
  if value = ['-', '-'] then .ok (s.withdraw flag)
  else
    match flag with
    | .program => .ok { s with program := some value }
    | .inline => .ok { s with inline := some value }
    | .maxCycles =>
        match Numeral.ofArgument? value with
        | some n => .ok { s with maxCycles := n }
        | none =>
            .error (.usage ⟨s!"argument --max-cycles: invalid int value: {value.quoted.str}"⟩)
    | _ => .ok s

/-- The complaint about an option that lacks its value. -/
def lacking (flag : Flag) : UsageError where
  message := s!"argument {flag.name}: expected one argument"

/-- The settings after all arguments, and the arguments that belong to no option. -/
def read (s : Settings) : List (Text × Argument) → Except Stop (Settings × List Text)
  | [] => .ok (s, [])
  | (_, .option flag form value) :: rest =>
      match Group.ofOption flag form value with
      | .error e => .error (.usage e)
      | .ok g =>
          match g.ending, rest with
          | .nothing, rest => do (← g.flags.foldlM turnOn s).read rest
          | .value last text, rest => do
              (← (← g.flags.foldlM turnOn s).assign text last).read rest
          | .wanting last, (text, .plain) :: rest => do
              (← (← g.flags.foldlM turnOn s).assign text last).read rest
          | .wanting last, _ => .error (.usage (lacking last))
  | (t, _) :: rest => (s.read rest).map fun (s, extra) => (s, t :: extra)

/-- Whether a setting was given and is not empty. -/
def isGiven (value : Option Text) : Bool :=
  value.getD [] ≠ []

/-- The settings that arguments ask for. -/
def ofArguments (arguments : List Text) : Except Stop Settings :=
  match Argument.ofTexts arguments with
  | .error e => .error (.usage e)
  | .ok readings =>
      match read {} readings with
      | .error stop => .error stop
      | .ok (s, []) =>
          if isGiven s.program || isGiven s.inline then .ok s
          else .error (.usage ⟨"Either --program or --inline is required"⟩)
      | .ok (_, extra) =>
          .error (.usage ⟨"unrecognized arguments: " ++ Text.str ([' '].intercalate extra)⟩)

end Settings
end CommandLine
end RegisterMachine
