import CueSheet.Text.Blank

/-!
# Lines of a text

Lines end at a line feed and nowhere else, so that line numbers agree with what an editor shows; one
carriage return before the line feed belongs to the line end. A text that ends with a line feed has
no further, empty line after it.
-/

namespace CueSheet.Text

/-- Drops the last line if it is empty. -/
def dropEmptyLast (lines : List (List Char)) : List (List Char) :=
  if lines.getLast? = some [] then lines.dropLast else lines

/-- Drops one carriage return at the end of a line. -/
def dropReturn (line : List Char) : List Char :=
  if line.getLast? = some '\r' then line.dropLast else line

/-- The lines of a text without their line ends. -/
def lines (text : List Char) : List (List Char) :=
  if text.isEmpty then [] else (dropEmptyLast (pieces (· == '\n') text)).map dropReturn

/-- The text without the byte order marks at its start. -/
def dropMarks (text : List Char) : List Char := text.dropWhile (· == '\ufeff')

/-- The text with every carriage return, alone or before a line feed, read as a line feed. -/
def unifyLineEnds : List Char → List Char
  | [] => []
  | '\r' :: '\n' :: rest => '\n' :: unifyLineEnds rest
  | c :: rest => (if c = '\r' then '\n' else c) :: unifyLineEnds rest

example : lines "a\r\nb\r\r\n\nc".toList =
    ["a".toList, "b\r".toList, [], "c".toList] := by decide

end CueSheet.Text
