import RegisterMachine.Text.Blank
import RegisterMachine.Text.Digit

/-!
# Numerals

Integers are written in decimal with an optional sign.  Digits of every script
are read; only `0` to `9` are written.

**Contents.**
* `Numeral.write`: the decimal text of an integer.
* `Numeral.ofToken?`: the numerals of the assembly language.
* `Numeral.read`: the value of a numeral of at most `Numeral.maxDigits` digits.
* `Numeral.isShowable`: the integers that have no more digits than that.
* `Numeral.shown`: the decimal text of such an integer, and an error for any other.
* `Numeral.overlong`: the least natural number that is not showable.
* `Numeral.ofArgument?`: the wider form in which a count is given as an
  argument, with blanks around it and underscores between its digits.

**Results.**
* `Numeral.isShowable_iff`: an integer is shown if it is less than a power of ten.
* `Numeral.not_isShowable_overlong`: that power of ten is not shown.
-/

namespace RegisterMachine

/-- A numeral that has more digits than may be read. -/
structure TooLong where
  digits : Nat
deriving DecidableEq, Repr

namespace TooLong

/-- The message for a numeral that is too long. -/
def message (e : TooLong) : String :=
  "Exceeds the limit (4300 digits) for integer string conversion: value has "
    ++ toString e.digits
    ++ " digits; use sys.set_int_max_str_digits() to increase the limit"

end TooLong

/-- An integer that has more digits than may be shown. -/
structure Unshowable where
deriving DecidableEq, Repr

namespace Unshowable

/-- The message for an integer that is too long to be shown. -/
def message (_ : Unshowable) : String :=
  "Exceeds the limit (4300 digits) for integer string conversion; "
    ++ "use sys.set_int_max_str_digits() to increase the limit"

end Unshowable

/-- A numeral: whether it is negative, and the values of its digits from the left. -/
structure Numeral where
  negative : Bool
  digits : List Nat
deriving DecidableEq, Repr

namespace Numeral

/-- The decimal text of an integer. -/
def write : Int → Text
  | .ofNat n => Nat.toDigits 10 n
  | .negSucc n => '-' :: Nat.toDigits 10 (n + 1)

/-- The decimal text of an integer, for messages. -/
def str (n : Int) : String :=
  (write n).str

/-- The longest numeral that is read or shown has this many digits, leading zeros
included and the sign not. -/
def maxDigits : Nat := 4300

/-- Whether an integer is short enough to be shown. -/
def isShowable (n : Int) : Bool :=
  (Nat.toDigits 10 n.natAbs).length ≤ maxDigits

/-- The decimal text of an integer, unless it is too long to be shown. -/
def shown (n : Int) : Except Unshowable Text :=
  if isShowable n then .ok (write n) else .error {}

/-- The least natural number that is too long to be shown, a one with as many zeros as a
numeral may have digits. -/
@[irreducible] def overlong : Nat :=
  Nat.pow 10 maxDigits

/-- The number that digits denote in base ten. -/
def magnitude (ds : List Nat) : Nat :=
  ds.foldl (fun n d => 10 * n + d) 0

/-- The integer that a numeral denotes. -/
def value (n : Numeral) : Int :=
  if n.negative then -(magnitude n.digits : Int) else magnitude n.digits

/-- The value of a numeral, unless it has too many digits. -/
def read (n : Numeral) : Except TooLong Int :=
  if n.digits.length ≤ maxDigits then .ok n.value else .error ⟨n.digits.length⟩

/-- A sign in front of a text, if there is one, and the rest. -/
def splitSign : Text → Bool × Text
  | '-' :: cs => (true, cs)
  | '+' :: cs => (false, cs)
  | cs => (false, cs)

/-- The values of the characters of a text that has at least one, all digits. -/
def digits? (t : Text) : Option (List Nat) :=
  if t ≠ [] ∧ t.all Text.isDigit then some (t.filterMap Text.digit?) else none

/-- The text without its last character if that is a newline. -/
def dropFinalNewline (t : Text) : Text :=
  if t.getLast? = some '\n' then t.dropLast else t

/-- A token is a numeral when it is a run of digits behind an optional sign; one
newline may follow. -/
def ofToken? (t : Text) : Option Numeral :=
  let (negative, body) := splitSign t
  (digits? (dropFinalNewline body)).map (⟨negative, ·⟩)

/-- The blanks that may surround a count given as an argument. -/
def isPadding (c : Char) : Bool :=
  Text.isBlank c && !Text.isSeparator c

/-- A count given as an argument: blanks around it are dropped, and single
underscores may stand between its digits. -/
def ofArgument? (t : Text) : Option Int :=
  let (negative, body) := splitSign (Text.trimOf isPadding t)
  match (body.splitOn '_').mapM digits? with
  | none => none
  | some groups => (read ⟨negative, groups.flatten⟩).toOption

theorem pow_le_overlong {n : Nat} (h : n ≤ maxDigits) : Nat.pow 10 n ≤ overlong := by
  unfold overlong
  generalize maxDigits = digits at h ⊢
  exact Nat.pow_le_pow_right (by decide) h

/-- **An integer is short enough to be shown** if it is less than a power of ten. -/
theorem isShowable_iff {n : Int} : isShowable n = true ↔ n.natAbs < overlong := by
  have hpos : 0 < maxDigits := Nat.zero_lt_succ 4299
  unfold isShowable overlong
  generalize maxDigits = digits at hpos ⊢
  rw [decide_eq_true_eq]
  exact Nat.length_toDigits_le_iff (by decide) hpos

theorem not_isShowable_overlong : isShowable overlong = false := by
  rw [Bool.eq_false_iff, ne_eq, isShowable_iff, Int.natAbs_natCast]
  exact Nat.lt_irrefl overlong

/-- The sign does not count. -/
theorem isShowable_neg (n : Int) : isShowable (-n) = isShowable n := by
  rw [isShowable, isShowable, Int.natAbs_neg]

theorem not_isShowable_neg_overlong : isShowable (-overlong) = false := by
  rw [isShowable_neg]
  exact not_isShowable_overlong

theorem neg_overlong_nonpos : (-overlong : Int) ≤ 0 :=
  Int.neg_nonpos_of_nonneg (Int.natCast_nonneg overlong)

theorem shown_of_isShowable {n : Int} (h : isShowable n = true) : shown n = .ok (write n) :=
  if_pos h

theorem shown_of_not_isShowable {n : Int} (h : isShowable n = false) : shown n = .error {} := by
  simp [shown, h]

end Numeral
end RegisterMachine
