import RegisterMachine.Text.Printable

/-!
# Quoted form

Messages show a name or an output between quotes, with every character that
would not show as itself written as an escape.

**Rules.**
* The quote is `'`, except that a text with `'` and without `"` takes `"`.
* The quote in use and the backslash are preceded by a backslash; tab, newline
  and carriage return are `\t`, `\n` and `\r`.
* Any other character that is not printable is `\x`, `\u` or `\U` with two, four
  or eight hexadecimal digits, whichever is the first that fits.
-/

namespace RegisterMachine
namespace Text

/-- The quote that a text is shown between. -/
def quoteFor (t : Text) : Char :=
  if '\x27' ∈ t ∧ '\x22' ∉ t then '\x22' else '\x27'

/-- The hexadecimal digits of a number, with zeros in front up to a width. -/
def hex (width n : Nat) : Text :=
  let digits := Nat.toDigits 16 n
  List.replicate (width - digits.length) '0' ++ digits

/-- The escape of a code point: the shortest of the three forms that holds it. -/
def numericEscape (n : Nat) : Text :=
  if n < 0x100 then '\\' :: 'x' :: hex 2 n
  else if n < 0x10000 then '\\' :: 'u' :: hex 4 n
  else '\\' :: 'U' :: hex 8 n

/-- One character as it is written between quotes. -/
def escape (quote c : Char) : Text :=
  if c = quote ∨ c = '\\' then ['\\', c]
  else if c = '\t' then ['\\', 't']
  else if c = '\n' then ['\\', 'n']
  else if c = '\r' then ['\\', 'r']
  else if isPrintable c then [c]
  else numericEscape c.toNat

/-- The quoted form of a text. -/
def quoted (t : Text) : Text :=
  let quote := quoteFor t
  quote :: t.flatMap (escape quote) ++ [quote]

end Text
end RegisterMachine
