import CueSheet.Text.Turns

/-!
# Blank characters

Blank characters separate words and are stripped from the ends of lines. The class holds the white
space of Unicode together with the four information separators below the space; it leaves out the
zero-width space and the byte order mark.
-/

namespace CueSheet.Text

/-- Code points at which the class of blank characters begins or ends. -/
def blankTurns : Turns := [
  0x9, 0xe, 0x1c, 0x21, 0x85, 0x86, 0xa0, 0xa1, 0x1680, 0x1681, 0x2000, 0x200b, 0x2028, 0x202a,
  0x202f, 0x2030, 0x205f, 0x2060, 0x3000, 0x3001]

/-- Whether a character is blank. -/
def isBlank (c : Char) : Bool := blankTurns.covers c.toNat

/-- The text without the blank characters at its start. -/
def stripStart (text : List Char) : List Char := text.dropWhile isBlank

/-- The text without the blank characters at its end. -/
def stripEnd (text : List Char) : List Char := (text.reverse.dropWhile isBlank).reverse

/-- The text without the blank characters at its two ends. -/
def strip (text : List Char) : List Char := stripEnd (stripStart text)

/-- Adds one character in front of a sequence of pieces: a separator opens a new piece, and any
other character joins the first one. -/
def consPiece (isSeparator : Char → Bool) (c : Char) (pieces : List (List Char)) :
    List (List Char) :=
  if isSeparator c then [] :: pieces else pieces.modifyHead (c :: ·)

/-- The pieces of a text between separators, the empty ones included. -/
def pieces (isSeparator : Char → Bool) (text : List Char) : List (List Char) :=
  text.foldr (consPiece isSeparator) [[]]

/-- The maximal runs of characters that are not separators. -/
def runs (isSeparator : Char → Bool) (text : List Char) : List (List Char) :=
  (pieces isSeparator text).filter (!·.isEmpty)

/-- The words of a text: its maximal runs of characters that are not blank. -/
def words (text : List Char) : List (List Char) := runs isBlank text

/-- The words of a text with one space between neighbours. -/
def collapse (text : List Char) : List Char := [' '].intercalate (words text)

@[simp] theorem pieces_nil (isSeparator : Char → Bool) : pieces isSeparator [] = [[]] := rfl

@[simp] theorem pieces_cons (isSeparator : Char → Bool) (c : Char) (text : List Char) :
    pieces isSeparator (c :: text) = consPiece isSeparator c (pieces isSeparator text) := rfl

/-- A text always has a first piece. -/
theorem pieces_ne_nil (isSeparator : Char → Bool) (text : List Char) :
    pieces isSeparator text ≠ [] := by
  induction text with
  | nil => simp
  | cons c text ih =>
    rw [pieces_cons, consPiece]
    split
    · simp
    · cases h : pieces isSeparator text with
      | nil => exact absurd h ih
      | cons piece rest => simp

end CueSheet.Text
