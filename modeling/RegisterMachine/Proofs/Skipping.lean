import Mathlib.Data.List.TakeWhile
import RegisterMachine.Proofs.Stepping

/-!
# Skipping idle lines

Before an instruction is executed, the machine moves over the lines that have nothing to
execute.  Nothing else of it changes, and where it stops is determined by these lines and
the one behind them.

**Contents.**
* `Machine.Skips`: a machine before and after it has moved over idle lines.
* `Machine.Stops`: a machine that cannot move over the line at hand.

**Results.**
* `Machine.skips_settle`, `Machine.stops_settle`: settling moves over idle lines, up to a line
  that is not.
* `Machine.settle_eq`: no other machine is reached so.
-/

namespace RegisterMachine
namespace Machine

variable {p q : Program} {m m' after : Machine}

/-- A machine before and after it has moved over lines that have nothing to execute. -/
structure Skips (p : Program) (m m' : Machine) : Prop where
  /-- Only the program counter has changed. -/
  same : m' = m.jump m'.pc
  le : m.pc ≤ m'.pc
  idle : ∀ n : Nat, m.pc ≤ n → n < m'.pc → ∃ line, p.lines[n]? = some line ∧ line.isNoop = true

/-- A machine that stands at an instruction or behind the last line. -/
def Stops (p : Program) (m : Machine) : Prop :=
  p.instructionAt? m.pc = none → p.size ≤ m.pc

namespace Skips

theorem refl (p : Program) (m : Machine) : m.Skips p m where
  same := rfl
  le := Int.le_refl _
  idle n hge hlt := by omega

theorem trans (h : m.Skips p m') (h' : m'.Skips p after) : m.Skips p after where
  same := by
    rw [h'.same, h.same]
    rfl
  le := Int.le_trans h.le h'.le
  idle n hge hlt := by
    by_cases hn : (n : Int) < m'.pc
    · exact h.idle n hge hn
    · exact h'.idle n (by omega) hlt

/-- What is skipped in one program is skipped in another with the same lines there. -/
theorem congr (h : m.Skips p m')
    (hlines : ∀ n : Nat, m.pc ≤ n → n < m'.pc → q.lines[n]? = p.lines[n]?) :
    m.Skips q m' where
  same := h.same
  le := h.le
  idle n hge hlt := by
    rw [hlines n hge hlt]
    exact h.idle n hge hlt

end Skips

theorem not_stops_of_isNoop {n : Nat} {line : Line} (hpc : m.pc = n)
    (hline : p.lines[n]? = some line) (hnoop : line.isNoop = true) : ¬ m.Stops p := by
  intro hstops
  have hnone : p.instructionAt? m.pc = none := by
    rw [Program.instructionAt?, hpc, Int.toNat_natCast, hline]
    simpa [Line.isNoop] using hnoop
  have hsize := hstops hnone
  obtain ⟨hlt, -⟩ := List.getElem?_eq_some_iff.mp hline
  rw [Program.size] at hsize
  omega

/-- Settling moves over idle lines only. -/
theorem skips_settle (hnonneg : 0 ≤ m.pc) : m.Skips p (m.settle p) where
  same := rfl
  le := pc_le_settle p m
  idle n hge hlt := by
    obtain ⟨k, rfl⟩ : ∃ k, n = m.pc.toNat + k := ⟨n - m.pc.toNat, by omega⟩
    have hprefix := List.takeWhile_prefix Line.isNoop (l := p.lines.drop m.pc.toNat)
    have hk : k < ((p.lines.drop m.pc.toNat).takeWhile Line.isNoop).length := by
      simp only [settle, jump] at hlt
      omega
    refine ⟨_, ?_, List.mem_takeWhile_imp (List.getElem_mem hk)⟩
    rw [← List.getElem?_drop, hprefix.getElem hk]
    exact List.getElem?_eq_getElem _

theorem stops_settle (hnonneg : 0 ≤ m.pc) : (m.settle p).Stops p :=
  (instructionAt?_settle hnonneg).mp

/-- **Settling leads to the one machine** that is reached over idle lines and stops there. -/
theorem settle_eq (hnonneg : 0 ≤ m.pc) (hskips : m.Skips p m') (hstops : m'.Stops p) :
    m.settle p = m' := by
  have hsettle := @skips_settle p m hnonneg
  have hle := hsettle.le
  have hle' := hskips.le
  have hpc : (m.settle p).pc = m'.pc := by
    rcases Int.lt_trichotomy (m.settle p).pc m'.pc with hlt | heq | hgt
    · obtain ⟨n, hn⟩ := Int.eq_ofNat_of_zero_le (Int.le_trans hnonneg hle)
      obtain ⟨line, hline, hnoop⟩ := hskips.idle n (by omega) (by omega)
      exact absurd (stops_settle hnonneg) (not_stops_of_isNoop hn hline hnoop)
    · exact heq
    · obtain ⟨n, hn⟩ := Int.eq_ofNat_of_zero_le (Int.le_trans hnonneg hle')
      obtain ⟨line, hline, hnoop⟩ := hsettle.idle n (by omega) (by omega)
      exact absurd hstops (not_stops_of_isNoop hn hline hnoop)
  rw [hskips.same, ← hpc]
  rfl

end Machine
end RegisterMachine
