/-!
# Lines

A line ends at a line feed; a carriage return right before the line feed belongs to the line end.
What follows the last line feed is a line of its own unless it is empty.
-/

namespace PageScript.Text

/-- Drops a carriage return at the end of a line. -/
def dropReturn (line : List Char) : List Char :=
  if line.getLast? = some '\r' then line.dropLast else line

/-- The lines of a text; `pending` holds, reversed, the part of the current line before it. -/
def linesFrom (pending : List Char) : List Char → List (List Char)
  | [] => if pending.isEmpty then [] else [pending.reverse]
  | '\n' :: rest => dropReturn pending.reverse :: linesFrom [] rest
  | c :: rest => linesFrom (c :: pending) rest

/-- The lines of a text, without their line ends. -/
def lines (s : List Char) : List (List Char) :=
  linesFrom [] s

end PageScript.Text
