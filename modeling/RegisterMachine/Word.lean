/-!
# Words

A register holds a signed 32-bit word.  Arithmetic is done on integers of any
size, and the result is brought back into the range of a word.

**Contents.**
* `Word.lowBits`: the lowest 32 binary digits of an integer.
* `Word.wrap`: the word that has the same lowest 32 binary digits as an integer.
* `Word.InRange`: the integers that are words.

**Results.**
* `Word.wrap_eq_bmod`: wrapping is the balanced remainder by `2 ^ 32`.
* `Word.inRange_wrap`: wrapping always gives a word.
* `Word.wrap_of_inRange`: a word is left as it is.
-/

namespace RegisterMachine
namespace Word

/-- The number of words, two to the power of 32. -/
def modulus : Nat := 4294967296

/-- The smallest word. -/
def least : Int := -2147483648

/-- The greatest word. -/
def greatest : Int := 2147483647

/-- An integer is a word when it lies between the least and the greatest one. -/
def InRange (v : Int) : Prop :=
  least ≤ v ∧ v ≤ greatest

instance (v : Int) : Decidable (InRange v) :=
  inferInstanceAs (Decidable (_ ∧ _))

/-- The lowest 32 binary digits of an integer, as a natural number. -/
def lowBits (v : Int) : Nat :=
  (BitVec.ofInt 32 v).toNat

/-- The word for an integer: its distance from the least word is cut down to 32 binary
digits, and counted from the least word again. -/
def wrap (v : Int) : Int :=
  lowBits (v - least) + least

/-- **Wrapping is the balanced remainder** by the number of words. -/
theorem wrap_eq_bmod (v : Int) : wrap v = v.bmod modulus := by
  rw [wrap, lowBits, BitVec.toNat_ofInt, Int.bmod_def]
  simp only [least, modulus]
  omega

theorem inRange_wrap (v : Int) : InRange (wrap v) := by
  have hlow : -((4294967296 : Nat) / 2 : Int) ≤ Int.bmod v 4294967296 :=
    Int.le_bmod (by decide)
  have hhigh : Int.bmod v 4294967296 < ((4294967296 : Nat) + 1) / 2 :=
    Int.bmod_lt (by decide)
  simp only [InRange, least, greatest, wrap_eq_bmod, modulus]
  omega

theorem wrap_of_inRange {v : Int} (h : InRange v) : wrap v = v := by
  simp only [InRange, least, greatest] at h
  simp only [wrap_eq_bmod, modulus]
  exact Int.bmod_eq_of_le (by omega) (by omega)

end Word
end RegisterMachine
