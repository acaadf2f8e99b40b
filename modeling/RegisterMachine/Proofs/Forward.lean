import Mathlib.Algebra.Ring.Nat
import RegisterMachine.Proofs.Frame

/-!
# Programs that only go forward

A program without loops ends, although a return goes back to the line of its call and a
subroutine may be called from many places.  The lines on the call stack, from the outermost
call on, with the program counter behind them, form a sequence of increasing lines, and the
run goes through such sequences in the order of a dictionary.  The number of sequences that
come later bounds the instructions that are still to be executed.

**Contents.**
* `Program.Forward`: every jump, branch and call leads to a later line.
* `Program.weight`: the number of sequences of increasing lines behind a line.
* `Machine.potential`: the number of sequences that come after that of a machine.

**Results.**
* `Program.two_mul_weight_lt`: what lies behind a later line is less than half.
* `Instruction.Decoded.potential_lt`: an instruction other than `END` lowers the potential.
* `Run.potential_next`: a step ends the run or lowers its potential.
* `Program.ends_of_forward`: every run of a forward program ends.
-/

namespace RegisterMachine
namespace Program

/-- Every defined label that a jump, a branch or a call names stands behind it. -/
def Forward (p : Program) : Prop :=
  ∀ line < p.size, ∀ i ∈ p.instructionAt? line, ∀ target ∈ i.targetLine? p, line < target

instance (p : Program) : Decidable p.Forward :=
  inferInstanceAs (Decidable (∀ line < p.size, _))

/-- The number of sequences of increasing lines behind a line, the end of the program counted
as a line and the empty sequence not. -/
def weight (p : Program) (line : Int) : Nat :=
  2 ^ (p.size - line).toNat - 1

variable {p : Program} {line target : Int}

theorem weight_le (h : line ≤ target) : p.weight target ≤ p.weight line := by
  have hpow : 2 ^ (p.size - target).toNat ≤ 2 ^ (p.size - line).toNat :=
    Nat.pow_le_pow_right (by decide) (by omega)
  simp only [weight]
  omega

/-- **What lies behind a later line is less than half.** -/
theorem two_mul_weight_lt (h : line < target) (hle : target ≤ p.size) :
    2 * p.weight target < p.weight line := by
  have hpow : 2 ^ ((p.size - target).toNat + 1) ≤ 2 ^ (p.size - line).toNat :=
    Nat.pow_le_pow_right (by decide) (by omega)
  have hpos : 0 < 2 ^ (p.size - target).toNat := Nat.pow_pos (by decide)
  rw [Nat.pow_succ] at hpow
  simp only [weight]
  omega

theorem Forward.lt (h : p.Forward) {i : Instruction} {pc : Int} {target : Nat} (hpc : 0 ≤ pc)
    (hi : p.instructionAt? pc = some i) (htarget : i.targetLine? p = some target) :
    pc < target := by
  obtain ⟨line, rfl⟩ := Int.eq_ofNat_of_zero_le hpc
  have hsize := Machine.lt_size_of_instructionAt? hi
  have hlt := h line (by omega) i hi target htarget
  omega

end Program

/-- The number of sequences that come after the call stack with the program counter: for each
line on the stack those that go on with a later line in its place, and for the program
counter those that go on behind it as well. -/
def Machine.potential (p : Program) (m : Machine) : Nat :=
  (m.callStack.map p.weight).sum + 2 * p.weight m.pc

namespace Instruction

variable {i : Instruction} {p : Program} {m after : Machine}

/-- **An instruction other than `END` lowers the potential** in a forward program. -/
theorem Decoded.potential_lt (hi : i.Decoded) (hforward : p.Forward) (hsound : m.Sound p)
    (hat : p.instructionAt? m.pc = some i) (hafter : after.tick.Sound p)
    (h : i.action.Performs p m after) (hopcode : i.opcode ≠ .halt) :
    after.potential p < m.potential p := by
  have hframe := hi.frame h
  have hle : after.pc ≤ p.size := hafter.pc_le
  have hcontinues : i.Continues p m after.pc := hframe.continues
  have hsame : i.opcode ≠ .call → i.opcode ≠ .ret → after.callStack = m.callStack :=
    hframe.callStack
  have hlater : ∀ target, i.targetLine? p = some target → m.pc < (target : Int) :=
    fun target => hforward.lt hsound.pc_nonneg hat
  simp only [Machine.potential]
  generalize after.pc = pc at hcontinues hle ⊢
  cases hcontinues with
  | next hstraight =>
      have hstack := hsame (by rintro hcall; simp [hcall, Opcode.isControl] at hstraight)
        (by rintro hret; simp [hret, Opcode.isControl] at hstraight)
      have hweight := Program.two_mul_weight_lt (Int.lt_succ m.pc) hle
      rw [hstack]
      omega
  | @jump target hjump htarget =>
      have hweight := Program.two_mul_weight_lt (hlater target htarget) hle
      rcases hjump with hjump | hcall
      · rw [hsame (by simp [hjump]) (by simp [hjump])]
        omega
      · -- the line of the call is counted once on the stack, and no longer twice
        have hstack : after.callStack = m.pc :: m.callStack := hframe.called hcall
        rw [hstack, List.map_cons, List.sum_cons]
        omega
  | @taken _ target _ _ hbranch htarget _ _ =>
      have hweight := Program.two_mul_weight_lt (hlater target htarget) hle
      rw [hsame (by simp [hbranch]) (by simp [hbranch])]
      omega
  | passed hbranch _ _ =>
      have hweight := Program.two_mul_weight_lt (Int.lt_succ m.pc) hle
      rw [hsame (by simp [hbranch]) (by simp [hbranch])]
      omega
  | @ret index rest hret hstack =>
      -- behind the line of the call lies less than what the stack has counted for it
      obtain ⟨called, hcalled⟩ := hframe.returned hret
      rw [hstack] at hcalled
      obtain ⟨-, hrest⟩ := List.cons.inj hcalled
      have hkept : after.callStack = rest := hrest.symm
      have hweight := Program.two_mul_weight_lt (Int.lt_succ index) hle
      rw [hstack, hkept, List.map_cons, List.sum_cons]
      omega
  | halt hhalt =>
      exact absurd hhalt hopcode

end Instruction

namespace Run

variable {r : Run} {recording : Bool}

/-- **A step without a limit ends a run, or lowers its potential.** -/
theorem Sound.potential_next (h : r.Sound) (hforward : r.program.Forward)
    (hover : r.isOver = false) (recording : Bool) :
    (r.next none recording).isOver = true ∨
      (r.next none recording).machine.potential r.program < r.machine.potential r.program := by
  have hready : r.ready.Sound r.program := h.machine.settle
  have hmoves := moves_next hover none recording
  generalize r.next none recording = after at hmoves
  cases hmoves with
  | ranOff hi =>
      exact .inl (h.isOver_ready hi)
  | exhausted hi hspent =>
      cases hspent
  | failed hi hspent hfails hfault =>
      exact .inl rfl
  | @executed i after hi hspent hperforms =>
      have hdecoded := h.laidOut.decoded r.ready.pc i hi
      by_cases hopcode : i.opcode = .halt
      · left
        have hhalted : after.halted = true := ((hdecoded.frame hperforms).ended hopcode).2
        simp [isOver, Machine.finished, Machine.tick, hhalted]
      · right
        have hlt := hdecoded.potential_lt hforward hready hi
          (hready.performs h.laidOut hi hperforms) hperforms hopcode
        have hweight :=
          Program.weight_le (p := r.program) (Machine.pc_le_settle r.program r.machine)
        simp only [Machine.potential, Machine.tick] at hlt ⊢
        refine Nat.lt_of_lt_of_le hlt ?_
        exact Nat.add_le_add_left (Nat.mul_le_mul_left 2 hweight) _

/-- No limit breaks off a run that has none. -/
theorem abort_next_ne (habort : ∀ most, r.abort ≠ some (.exhausted most)) (recording : Bool)
    (most : Int) : (r.next none recording).abort ≠ some (.exhausted most) := by
  cases hover : r.isOver with
  | true =>
      rw [next_of_isOver hover]
      exact habort most
  | false =>
      have hmoves := moves_next hover none recording
      generalize r.next none recording = after at hmoves
      cases hmoves with
      | exhausted hi hspent => cases hspent
      | failed hi hspent hfails hfault => simp
      | _ => exact habort most

end Run

namespace Program

variable {p : Program} {recording : Bool}

theorem abort_proceed_ne (p : Program) (recording : Bool) (n : Nat) (most : Int) :
    ((Run.start p).proceed none recording n).abort ≠ some (.exhausted most) := by
  induction n generalizing most with
  | zero =>
      simp [Run.start]
  | succ n ih =>
      rw [Run.proceed_succ]
      exact Run.abort_next_ne ih recording most

/-- **The potential bounds the steps** that a forward program has taken and is not through with. -/
theorem LaidOut.potential_proceed (h : p.LaidOut) (hforward : p.Forward) {n : Nat}
    (hover : ((Run.start p).proceed none recording n).isOver = false) :
    ((Run.start p).proceed none recording n).machine.potential p + n ≤ 2 * p.weight 0 := by
  induction n with
  | zero =>
      simp [Run.start, Machine.potential]
  | succ n ih =>
      have hsound := (Run.Sound.initial h).proceed none recording n
      have hprogram : ((Run.start p).proceed none recording n).program = p := by
        rw [proceed_eq_course, program_course]
      rw [Run.proceed_succ] at hover ⊢
      generalize (Run.start p).proceed none recording n = r at hover ih hsound hprogram ⊢
      subst hprogram
      cases hbefore : r.isOver with
      | true =>
          rw [Run.next_of_isOver hbefore, hbefore] at hover
          cases hover
      | false =>
          have hle := ih hbefore
          rcases hsound.potential_next hforward hbefore recording with hend | hlt
          · rw [hend] at hover
            cases hover
          · omega

/-- **Programs that only go forward always end**: by `END`, behind the last line or by a
failing instruction, and before they have attempted as many instructions as there are sets of
lines, the end of the program counted as a line. -/
theorem ends_of_forward {source : Text} (h : ofSource source = .ok p) (hforward : p.Forward)
    (recording : Bool) :
    ∃ r, p.Ends none recording r ∧ r.attempts < 2 ^ (p.size + 1) ∧
      ((∃ output, r.outcome = .finished output) ∨ r.outcome = .ranOff ∨
        ∃ failure, r.outcome = .aborted (.failed failure)) := by
  have hp := laidOut_ofSource h
  have hover : ((Run.start p).proceed none recording (2 * p.weight 0 + 1)).isOver = true := by
    by_contra hnever
    have hle := hp.potential_proceed hforward (Bool.eq_false_iff.mpr hnever)
    omega
  refine ⟨_, ends_none_iff.mpr ⟨_, rfl, hover⟩, ?_, ?_⟩
  · have hattempts := attempts_proceed_le p recording (2 * p.weight 0 + 1)
    have hpos : 0 < 2 ^ p.size := Nat.pow_pos (by decide)
    have hweight : p.weight 0 = 2 ^ p.size - 1 := by
      simp [weight]
    rw [Nat.pow_succ]
    omega
  · have hsound := (Run.Sound.initial hp).proceed none recording (2 * p.weight 0 + 1)
    rcases hsound.outcome_cases with ⟨cause, houtcome, habort, -⟩ | ⟨output, houtcome, -⟩ |
      ⟨houtcome, -⟩ | ⟨-, -, hrunning⟩
    · cases cause with
      | failed failure => exact .inr (.inr ⟨failure, houtcome⟩)
      | exhausted most => exact absurd habort (abort_proceed_ne p recording _ most)
    · exact .inl ⟨output, houtcome⟩
    · exact .inr (.inl houtcome)
    · rw [hover] at hrunning
      cases hrunning

/-- Two calls of a subroutine that calls another one twice: ten instructions, of which nineteen
are executed. -/
theorem ends_of_forward_nested :
    ∃ p r, ofSource ("mov a,1\ncall f\ncall f\nmsg a\nend\n" ++
        "f:\ncall g\ncall g\nret\ng:\nadd a,a\nret").toList = .ok p ∧
      p.Forward ∧ p.Ends none false r ∧ r.attempts = 19 ∧ r.attempts < 2 ^ 13 ∧
      r.outcome = .finished ['1', '6'] := by
  obtain ⟨p, hp⟩ : ∃ p, p =
      ({ lines :=
          [.instruction { opcode := .mov, operands := [.register ['a'], .integer 1],
                          token := "mov".toList, text := "mov a,1".toList },
            .instruction { opcode := .call, operands := [.label ['f']],
                           token := "call".toList, text := "call f".toList },
            .instruction { opcode := .call, operands := [.label ['f']],
                           token := "call".toList, text := "call f".toList },
            .instruction { opcode := .msg, operands := [.register ['a']],
                           token := "msg".toList, text := "msg a".toList },
            .instruction { opcode := .halt, operands := [],
                           token := "end".toList, text := "end".toList },
            .label ['f'],
            .instruction { opcode := .call, operands := [.label ['g']],
                           token := "call".toList, text := "call g".toList },
            .instruction { opcode := .call, operands := [.label ['g']],
                           token := "call".toList, text := "call g".toList },
            .instruction { opcode := .ret, operands := [],
                           token := "ret".toList, text := "ret".toList },
            .label ['g'],
            .instruction { opcode := .arithmetic .add,
                           operands := [.register ['a'], .register ['a']],
                           token := "add".toList, text := "add a,a".toList },
            .instruction { opcode := .ret, operands := [],
                           token := "ret".toList, text := "ret".toList }]
         labels := [(['f'], 5), (['g'], 9)] } : Program) := ⟨_, rfl⟩
  have hsource : ofSource ("mov a,1\ncall f\ncall f\nmsg a\nend\n" ++
      "f:\ncall g\ncall g\nret\ng:\nadd a,a\nret").toList = .ok p := by
    subst hp
    decide +kernel
  have hforward : p.Forward := by
    subst hp
    decide +kernel
  have hwhole : p.Ends none false ((Run.start p).proceed none false 19) := by
    refine ends_none_iff.mpr ⟨19, rfl, ?_⟩
    subst hp
    decide +kernel
  obtain ⟨r, hends, hlt, -⟩ := ends_of_forward hsource hforward false
  have hr : r = (Run.start p).proceed none false 19 := hends.unique hwhole
  have hsize : p.size = 12 := by
    subst hp
    rfl
  rw [hsize] at hlt
  refine ⟨p, r, hsource, hforward, hends, ?_, hlt, ?_⟩
  · subst hr hp
    decide +kernel
  · subst hr hp
    decide +kernel

end Program
end RegisterMachine
