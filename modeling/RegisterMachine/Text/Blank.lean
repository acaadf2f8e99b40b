import RegisterMachine.Text.Basic

/-!
# Blank characters

A character is blank when it separates words: the ASCII controls that move the
print position, the four information separators, and the spaces and line or
paragraph separators of Unicode.

**Contents.**
* `Text.isBlank`: the class itself.
* `Text.trim`: a text without the blank characters at its two ends.
-/

namespace RegisterMachine
namespace Text

/-- The blank characters, as closed ranges of code points. -/
def blankRanges : List (Nat × Nat) :=
  [(0x09, 0x0D), (0x1C, 0x20), (0x85, 0x85), (0xA0, 0xA0), (0x1680, 0x1680),
    (0x2000, 0x200A), (0x2028, 0x2029), (0x202F, 0x202F), (0x205F, 0x205F),
    (0x3000, 0x3000)]

/-- Membership of a character in a list of closed ranges of code points. -/
def inRanges (ranges : List (Nat × Nat)) (c : Char) : Bool :=
  ranges.any fun r => r.1 ≤ c.toNat && c.toNat ≤ r.2

/-- Whether a character is blank. -/
def isBlank (c : Char) : Bool :=
  inRanges blankRanges c

/-- Whether a character is one of the four information separators. -/
def isSeparator (c : Char) : Bool :=
  inRanges [(0x1C, 0x1F)] c

/-- The text without the leading characters of a class. -/
def trimLeft (p : Char → Bool) (t : Text) : Text :=
  t.dropWhile p

/-- The text without the trailing characters of a class. -/
def trimRight (p : Char → Bool) (t : Text) : Text :=
  (t.reverse.dropWhile p).reverse

/-- The text without the characters of a class at its two ends. -/
def trimOf (p : Char → Bool) (t : Text) : Text :=
  trimRight p (trimLeft p t)

/-- The text without blank characters at its two ends. -/
def trim (t : Text) : Text :=
  trimOf isBlank t

end Text
end RegisterMachine
