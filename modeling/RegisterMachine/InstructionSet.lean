import RegisterMachine.Action
import RegisterMachine.Table
import RegisterMachine.Text.Quoted

/-!
# Instruction sets

The operations that a machine knows, each with its handler.  A set grows until it
is closed, and holds each operation once.

**Contents.**
* `Opcode.named`: the operation of a given name, if there is one.
* `Opcode.handler`: what an operation makes of an instruction.
* `InstructionSet.add`, `InstructionSet.close`: growing and closing.
* `InstructionSet.standard`: the closed set of all operations.
* `InstructionSet.execute`: executing an instruction by the handler of its operation.

**Results.**
* `InstructionSet.addAll_eq`: operations that are all different can be added.
* `InstructionSet.addAll_all`: the complete set comes from adding all operations.
* `InstructionSet.execute_standard`: the standard set executes every instruction.
-/

namespace RegisterMachine

/-- A name that no operation has. -/
structure NoSuchOpcode where
  name : Text
deriving DecidableEq, Repr

/-- The complaint about the name. -/
def NoSuchOpcode.message (e : NoSuchOpcode) : String :=
  s!"{e.name.quoted.str} is not a valid Opcode"

namespace Opcode

/-- The operation that has a given mnemonic, letter for letter. -/
def named (t : Text) : Except NoSuchOpcode Opcode :=
  match ofMnemonic? t with
  | some opcode => .ok opcode
  | none => .error ⟨t⟩

/-- What an operation makes of an instruction: its action, were it of this operation. -/
def handler (opcode : Opcode) (i : Instruction) : Action :=
  { i with opcode }.action

end Opcode

/-- Operations with their handlers, and whether the set is closed to new ones. -/
structure InstructionSet where
  handlers : List (Opcode × (Instruction → Action)) := []
  closed : Bool := false

namespace InstructionSet

/-- Why an operation is not added. -/
inductive Refusal
  | isClosed
  | taken (opcode : Opcode)
deriving DecidableEq, Repr

/-- The refusal in words. -/
def Refusal.message : Refusal → String
  | .isClosed => "Cannot register handlers: registry is frozen"
  | .taken opcode => s!"Handler already registered: {opcode.mnemonic.str}"

/-- The operations of a set. -/
def members (s : InstructionSet) : List Opcode :=
  s.handlers.map Prod.fst

/-- Adds an operation to a set that is not closed and does not have it. -/
def add (s : InstructionSet) (opcode : Opcode) (handler : Instruction → Action) :
    Except Refusal InstructionSet :=
  if s.closed then .error .isClosed
  else if opcode ∈ s.members then .error (.taken opcode)
  else .ok { s with handlers := s.handlers ++ [(opcode, handler)] }

/-- Adds operations with their own handlers, one after the other. -/
def addAll (s : InstructionSet) (opcodes : List Opcode) : Except Refusal InstructionSet :=
  opcodes.foldlM (fun s opcode => s.add opcode opcode.handler) s

/-- Closes a set to new operations. -/
def close (s : InstructionSet) : InstructionSet :=
  { s with closed := true }

/-- The set of all operations, still open. -/
def complete : InstructionSet :=
  { handlers := Opcode.all.map fun opcode => (opcode, opcode.handler) }

/-- The set of all operations, closed. -/
def standard : InstructionSet :=
  complete.close

/-- The handler of an operation. -/
def handler? (s : InstructionSet) (opcode : Opcode) : Option (Instruction → Action) :=
  s.handlers.lookup opcode

/-- Executes an instruction by the handler of its operation; `none` if the set has none. -/
def execute (s : InstructionSet) (p : Program) (i : Instruction) (m : Machine) :
    Option Attempt :=
  (s.handler? i.opcode).map fun handler => ((handler i).perform p m).counted

/-- The mnemonics of a set in alphabetical order. -/
def mnemonics (s : InstructionSet) : List Text :=
  (Table.ordered (s.members.map fun opcode => (opcode.mnemonic, opcode))).names

/-- **Operations that are all different can be added** to an open set that has none of them. -/
theorem addAll_eq {s : InstructionSet} (hopen : s.closed = false) {opcodes : List Opcode}
    (hnodup : (s.members ++ opcodes).Nodup) :
    s.addAll opcodes =
      .ok { s with
            handlers := s.handlers ++ opcodes.map fun opcode => (opcode, opcode.handler) } := by
  induction opcodes generalizing s with
  | nil =>
      simp [addAll, pure, Except.pure]
  | cons opcode opcodes ih =>
      have hnew : opcode ∉ s.members := by
        intro hmem
        exact (List.nodup_append.mp hnodup).2.2 opcode hmem opcode List.mem_cons_self rfl
      have hadd : s.add opcode opcode.handler =
          .ok { s with handlers := s.handlers ++ [(opcode, opcode.handler)] } := by
        simp [add, hopen, hnew]
      have hrest := @ih { s with handlers := s.handlers ++ [(opcode, opcode.handler)] } hopen
        (by simpa [members] using hnodup)
      rw [addAll, List.foldlM_cons, hadd]
      exact hrest.trans (by simp)

/-- **The complete set** comes from adding all operations to the empty one. -/
theorem addAll_all : addAll {} Opcode.all = .ok complete :=
  addAll_eq rfl (by decide)

theorem handler?_standard (opcode : Opcode) :
    standard.handler? opcode = some opcode.handler := by
  have hlookup : ∀ opcodes : List Opcode, opcode ∈ opcodes →
      (opcodes.map fun other => (other, other.handler)).lookup opcode =
        some opcode.handler := by
    intro opcodes
    induction opcodes with
    | nil =>
        simp
    | cons other opcodes ih =>
        intro hmem
        by_cases heq : opcode = other
        · simp [heq]
        · have hne : (opcode == other) = false := by
            simpa using heq
          have hrest : opcode ∈ opcodes := (List.mem_cons.mp hmem).resolve_left heq
          simpa [List.lookup_cons, hne] using ih hrest
  exact hlookup Opcode.all (Opcode.mem_all opcode)

/-- **The standard set executes every instruction**: each operation has its handler in it. -/
theorem execute_standard (p : Program) (i : Instruction) (m : Machine) :
    standard.execute p i m = some (i.execute p m) := by
  rw [execute, handler?_standard]
  rfl

end InstructionSet
end RegisterMachine
