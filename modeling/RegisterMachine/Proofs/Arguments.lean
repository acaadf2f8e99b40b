import Mathlib.Data.List.Induction
import RegisterMachine.CommandLine.Settings
import RegisterMachine.Proofs.Rendering

/-!
# Limits given as arguments

A limit that is given as an argument is read from a numeral, and a numeral that may be read
has no more digits than may be shown.  So the command line never runs a program under a limit
that cannot be shown.

**Results.**
* `Numeral.magnitude_lt`: digits denote less than a power of ten.
* `Numeral.isShowable_of_read`: an integer that was read can be shown.
* `CommandLine.Settings.isShowable_read`: reading arguments keeps a limit that can be shown.
* `CommandLine.Settings.isShowable_of_ofArguments`: the limit of all settings can be shown.
-/

namespace RegisterMachine
namespace Numeral

/-- Digits denote less than the power of ten with as many zeros. -/
theorem magnitude_lt {ds : List Nat} (h : ∀ d ∈ ds, d < 10) :
    magnitude ds < 10 ^ ds.length := by
  induction ds using List.reverseRecOn with
  | nil =>
      exact Nat.zero_lt_one
  | append_singleton ds d ih =>
      have hlast : d < 10 := h d (by simp)
      have hfirst := ih fun d hd => h d (List.mem_append_left _ hd)
      rw [magnitude_append, List.length_append, List.length_singleton, Nat.pow_succ]
      omega

theorem lt_ten_of_digits? {t : Text} {ds : List Nat} (h : digits? t = some ds) :
    ∀ d ∈ ds, d < 10 := by
  intro d hd
  simp only [digits?, Option.ite_none_right_eq_some, Option.some.injEq] at h
  obtain ⟨-, rfl⟩ := h
  obtain ⟨c, -, hc⟩ := List.mem_filterMap.mp hd
  exact Text.digit?_lt_ten hc

/-- The digits of groups of digits. -/
theorem lt_ten_of_mapM {ts : List Text} {groups : List (List Nat)}
    (h : ts.mapM digits? = some groups) : ∀ d ∈ groups.flatten, d < 10 := by
  induction ts generalizing groups with
  | nil =>
      cases h
      simp
  | cons t ts ih =>
      simp only [List.mapM_cons, Option.bind_eq_bind, Option.bind_eq_some_iff] at h
      obtain ⟨ds, hds, others, hothers, heq⟩ := h
      cases heq
      intro d hd
      rw [List.flatten_cons, List.mem_append] at hd
      exact hd.elim (lt_ten_of_digits? hds d) (ih hothers d)

/-- **An integer that was read can be shown.** -/
theorem isShowable_of_read {n : Numeral} {k : Int} (hdigits : ∀ d ∈ n.digits, d < 10)
    (h : n.read = .ok k) : isShowable k = true := by
  unfold read at h
  split at h
  · rename_i hlength
    cases h
    have habs : n.value.natAbs = magnitude n.digits := by
      unfold value
      split <;> simp
    rw [isShowable_iff, habs]
    exact Nat.lt_of_lt_of_le (magnitude_lt hdigits) (pow_le_overlong hlength)
  · cases h

theorem isShowable_zero : isShowable 0 = true :=
  isShowable_iff.mpr (Nat.lt_of_lt_of_le Nat.zero_lt_one (pow_le_overlong (Nat.zero_le _)))

theorem isShowable_of_ofArgument? {t : Text} {k : Int} (h : ofArgument? t = some k) :
    isShowable k = true := by
  unfold ofArgument? at h
  dsimp only at h
  split at h
  · cases h
  · rename_i groups hgroups
    generalize hn : (⟨(splitSign (Text.trimOf isPadding t)).1, groups.flatten⟩ : Numeral) = n at h
    have hdigits : ∀ d ∈ n.digits, d < 10 := by
      rw [← hn]
      exact lt_ten_of_mapM hgroups
    cases hread : n.read with
    | error long =>
        rw [hread] at h
        cases h
    | ok value =>
        rw [hread] at h
        cases h
        exact isShowable_of_read hdigits hread

end Numeral

namespace CommandLine
namespace Settings

variable {s after : Settings}

theorem maxCycles_of_turnOn {flag : Flag} (h : s.turnOn flag = .ok after) :
    after.maxCycles = s.maxCycles := by
  cases flag <;> cases h <;> rfl

/-- Options without a value leave the limit as it is. -/
theorem maxCycles_of_foldlM {flags : List Flag} (h : flags.foldlM turnOn s = .ok after) :
    after.maxCycles = s.maxCycles := by
  induction flags generalizing s with
  | nil =>
      cases h
      rfl
  | cons flag flags ih =>
      rw [List.foldlM_cons, Result.bind_eq_ok] at h
      obtain ⟨next, hnext, hrest⟩ := h
      rw [ih hrest, maxCycles_of_turnOn hnext]

theorem isShowable_assign {value : Text} {flag : Flag}
    (hs : Numeral.isShowable s.maxCycles = true) (h : s.assign value flag = .ok after) :
    Numeral.isShowable after.maxCycles = true := by
  unfold assign at h
  split at h
  · cases h
    cases flag with
    | maxCycles => exact Numeral.isShowable_zero
    | _ => exact hs
  · cases flag with
    | maxCycles =>
        dsimp only at h
        split at h
        · rename_i n hn
          cases h
          exact Numeral.isShowable_of_ofArgument? hn
        · cases h
    | _ =>
        cases h
        exact hs

/-- **Reading arguments keeps a limit that can be shown.** -/
theorem isShowable_read {readings : List (Text × Argument)} {extra : List Text}
    (hs : Numeral.isShowable s.maxCycles = true) (h : s.read readings = .ok (after, extra)) :
    Numeral.isShowable after.maxCycles = true := by
  -- an option without a value keeps the limit, and the value of one that takes a value is read
  fun_induction read s readings generalizing extra with
  | case1 =>
      cases h
      exact hs
  | case2 | case6 =>
      cases h
  | case3 _ _ _ _ _ _ _ _ _ ih =>
      obtain ⟨next, hflags, hrest⟩ := Result.bind_eq_ok.mp h
      rw [← maxCycles_of_foldlM hflags] at hs
      exact ih next hs hrest
  | case4 _ _ _ _ _ _ _ _ _ _ _ ih | case5 _ _ _ _ _ _ _ _ _ _ _ ih =>
      obtain ⟨next, hflags, hrest⟩ := Result.bind_eq_ok.mp h
      obtain ⟨last, hassign, hrest⟩ := Result.bind_eq_ok.mp hrest
      rw [← maxCycles_of_foldlM hflags] at hs
      exact ih last (isShowable_assign hs hassign) hrest
  | case7 _ _ _ _ _ ih =>
      obtain ⟨⟨last, others⟩, hread, heq⟩ := Result.map_eq_ok.mp h
      cases heq
      exact ih hs hread

/-- **The limit of all settings can be shown.** -/
theorem isShowable_of_ofArguments {arguments : List Text} (h : ofArguments arguments = .ok s) :
    Numeral.isShowable s.maxCycles = true := by
  have hdefault : Numeral.isShowable (maxCycles {}) = true := by
    decide
  unfold ofArguments at h
  split at h
  · cases h
  · split at h
    · cases h
    · rename_i hread
      split at h
      · cases h
        exact isShowable_read hdefault hread
      · cases h
    · cases h

end Settings
end CommandLine
end RegisterMachine
