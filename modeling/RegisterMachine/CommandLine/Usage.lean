/-!
# Usage and help

The texts that explain how the program is called.
-/

namespace RegisterMachine
namespace CommandLine

/-- How the program is called, in short. -/
def usage : List String :=
  ["usage: main.py [-h] [--program PROGRAM] [--inline INLINE]",
    "               [--max-cycles MAX_CYCLES] [--trace] [--quiet] [--verbose]"]

/-- The options one by one. -/
def optionHelp : List String :=
  ["options:",
    "  -h, --help            show this help message and exit",
    "  --program PROGRAM, -p PROGRAM",
    "                        Path to assembly program file (.asm)",
    "  --inline INLINE, -i INLINE",
    "                        Inline assembly (separate lines with a literal \\n)",
    "  --max-cycles MAX_CYCLES",
    "                        Maximum executed instructions, 0 for no limit.",
    "                        Default: 100000",
    "  --trace, -t           Print full execution trace",
    "  --quiet, -q           Minimal output (program output only)",
    "  --verbose, -v         Enable debug logging"]

/-- Some calls of the program. -/
def exampleCalls : List String :=
  ["Examples:",
    "    # Run the factorial program",
    "    python main.py --program programs/factorial.asm",
    "",
    "    # Run with full trace output",
    "    python main.py --program programs/gcd.asm --trace",
    "",
    "    # Run inline assembly (\\n separates lines)",
    "    python main.py --inline \"MOV a, 6\\nMUL a, 7\\nMSG 'a = ', a\\nEND\"",
    "        "]

/-- The whole help text. -/
def help : List String :=
  usage ++ ["", "regasm: register-machine assembly interpreter", ""]
    ++ optionHelp ++ "" :: exampleCalls

end CommandLine
end RegisterMachine
