/-!
# Limits

The playground takes the limit on executed instructions as a number that need
not be whole.  Such a number is held with a precision of 53 binary digits, and
its part behind the point is then dropped.

**Contents.**
* `Limit.nearest`: a quotient rounded to a whole number, a half to the even one.
* `Limit.hold`: the whole part of a fraction held with 53 binary digits.
* `Limit.ofDecimal`: the same for a signed decimal fraction.
-/

namespace RegisterMachine
namespace Limit

/-- The number of binary digits that a number is held with. -/
def precision : Nat := 53

/-- A quotient rounded to the nearest whole number; a half goes to the even one. -/
def nearest (n d : Nat) : Nat :=
  let q := n / d
  let twice := 2 * (n % d)
  if twice < d ∨ (twice = d ∧ q % 2 = 0) then q else q + 1

/-- The whole part of `n / d`, held with the precision: its last binary digit
stands in the place that leaves room for 53. -/
def hold (n d : Nat) : Nat :=
  let width := if n / d = 0 then 0 else (n / d).log2 + 1
  if precision ≤ width then
    let unit := Nat.pow 2 (width - precision)
    nearest n (d * unit) * unit
  else
    let scale := Nat.pow 2 (precision - width)
    nearest (n * scale) d / scale

/-- The whole part of a signed decimal fraction, `digits` divided by a power of
ten, held with the precision. -/
def ofDecimal (digits : Int) (places : Nat) : Int :=
  let size := hold digits.natAbs (Nat.pow 10 places)
  if digits < 0 then -(size : Int) else size

end Limit
end RegisterMachine
