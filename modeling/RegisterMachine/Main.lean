import RegisterMachine.CommandLine.Reply

/-!
# The program

Reads the file that the arguments name, computes the reply and writes it out.  A
run without a limit is tried with more and more fuel until it ends.
-/

namespace RegisterMachine
namespace CommandLine

/-- What a path leads to. -/
def lookUp (path : Text) : IO Found := do
  if (FileTree.follow {} (.ofText path)) = .tooLong then return .tooLong
  try
    let place ← IO.FS.realPath path.str
    if ← place.isDir then return .folder
    return .file (← IO.FS.readFile place).toList
  catch _ =>
    return .nothing

/-- What the file that the arguments ask for leads to; no other is looked up. -/
def filesFor (arguments : List Text) : IO (Text → Found) := do
  match Settings.ofArguments arguments with
  | .ok { program := some path, .. } =>
      let found ← lookUp path
      return fun other => if other = path then found else .nothing
  | _ => return fun _ => .nothing

/-- Writes the reply and gives its exit code; the fuel is doubled until the run
ends. -/
partial def answer (files : Text → Found) (arguments : List Text) (fuel : Nat) :
    IO UInt32 := do
  match respond files fuel arguments with
  | .ok (some reply) =>
      IO.print reply.stdout
      IO.eprint reply.stderr
      return reply.exit.toUInt32
  | .ok none => answer files arguments (2 * fuel)
  | .error e =>
      IO.eprintln e.message
      return 1

end CommandLine
end RegisterMachine

/-- The entry point of the program. -/
def main (args : List String) : IO UInt32 := do
  let arguments := args.map String.toList
  let files ← RegisterMachine.CommandLine.filesFor arguments
  RegisterMachine.CommandLine.answer files arguments 1000000
