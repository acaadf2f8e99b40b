/-!
# Text

Source text, names and program output are lists of characters, so that every
function on them recurses on the data.

**Contents.**
* `Text.lines` and `Text.unlines`: the pieces of a text between its newlines.
* `Text.joined`: pieces with a separator between them.
* `Text.unifyNewlines`: the reading of a file in which any line end counts.
* `Text.escapeBreaks` and `Text.expandBreaks`: a text on one line and back.
* `Text.str`: the same characters as a `String`, for messages.
-/

namespace RegisterMachine

/-- A text is the list of its characters. -/
abbrev Text := List Char

namespace Text

/-- The characters of a text as a `String`. -/
def str (t : Text) : String :=
  String.ofList t

/-- The pieces of a text between its newlines: one more than it has newlines. -/
def lines (t : Text) : List Text :=
  t.splitOn '\n'

/-- The pieces put together again with one newline between neighbours. -/
def unlines (ls : List Text) : Text :=
  ['\n'].intercalate ls

/-- The pieces put together with a comma and a space between neighbours. -/
def joined (ts : List Text) : Text :=
  [',', ' '].intercalate ts

/-- A carriage return, alone or before a newline, is read as one newline. -/
def unifyNewlines : Text → Text
  | [] => []
  | '\r' :: '\n' :: cs => '\n' :: unifyNewlines cs
  | '\r' :: cs => '\n' :: unifyNewlines cs
  | c :: cs => c :: unifyNewlines cs

/-- A backslash followed by `n` stands for a newline in source given on one line. -/
def expandBreaks : Text → Text
  | [] => []
  | '\\' :: 'n' :: cs => '\n' :: expandBreaks cs
  | c :: cs => c :: expandBreaks cs

/-- Every newline written as a backslash and an `n`, to give source on one line. -/
def escapeBreaks (t : Text) : Text :=
  t.flatMap fun c => if c = '\n' then ['\\', 'n'] else [c]

/-- The text padded on the left with spaces to at least the given width. -/
def padLeft (width : Nat) (t : Text) : Text :=
  List.replicate (width - t.length) ' ' ++ t

theorem lines_ne_nil (t : Text) : lines t ≠ [] := by
  simp [lines]

end Text
end RegisterMachine
