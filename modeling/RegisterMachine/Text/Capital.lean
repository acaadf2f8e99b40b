import RegisterMachine.Text.Basic

/-!
# Capital letters

Mnemonics are written with the letters `A` to `Z`.  Beside `a` to `z`, exactly
two characters have one of these as their capital: the dotless i and the long
s.  Every other character is its own capital as far as a mnemonic can tell.

**Contents.**
* `Text.capital`, `Text.capitals`: the capital of a character and of a text.
-/

namespace RegisterMachine
namespace Text

/-- The capital of a character among `A` to `Z`, or the character itself. -/
def capital (c : Char) : Char :=
  if c = 'ı' then 'I' else if c = 'ſ' then 'S' else c.toUpper

/-- A text with every letter replaced by its capital. -/
def capitals (t : Text) : Text :=
  t.map capital

end Text
end RegisterMachine
