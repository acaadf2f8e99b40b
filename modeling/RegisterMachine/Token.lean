import RegisterMachine.Operand

/-!
# Comments and tokens

A quote opens a quoted span and the next quote closes it.  Outside quoted spans
a semicolon begins a comment, and commas and blanks separate tokens.

**Contents.**
* `Token.uncomment`: the line up to its first unquoted semicolon.
* `Token.split`: the tokens of a line.

Each of the two readings keeps its own account of what is quoted.
-/

namespace RegisterMachine
namespace Token

/-- The text up to its first unquoted semicolon, read in a state of quotation. -/
def uncommentFrom (inside : Bool) : Text → Text
  | [] => []
  | c :: cs =>
      if c = Operand.quote then c :: uncommentFrom (!inside) cs
      else if c == ';' && !inside then []
      else c :: uncommentFrom inside cs

/-- The text up to its first unquoted semicolon. -/
def uncomment (t : Text) : Text :=
  uncommentFrom false t

/-- The token whose characters were read, the last one first; no character is no token. -/
def finished (current : Text) : List Text :=
  if current = [] then [] else [current.reverse]

/-- The tokens of a text, read in a state of quotation behind the characters of a token. -/
def splitFrom (inside : Bool) (current : Text) : Text → List Text
  | [] => finished current
  | c :: cs =>
      if c = Operand.quote then splitFrom (!inside) (c :: current) cs
      else if !inside && (c == ',' || Text.isBlank c) then
        finished current ++ splitFrom inside [] cs
      else splitFrom inside (c :: current) cs

/-- The tokens of a text: the non-empty pieces between its separators. -/
def split (t : Text) : List Text :=
  splitFrom false [] t

end Token
end RegisterMachine
