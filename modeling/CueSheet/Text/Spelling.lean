import CueSheet.Text.Case
import CueSheet.Text.Quoted

/-!
# Spellings

A document in JSON can spell one half of a character without the other. A spelling keeps such halves
apart from characters and from each other, so that names with halves are different names although no
text is one of them. A half has no letter case, and to the letters next to it it is an end of the
text.
-/

namespace CueSheet

/-- A character, or one half of a character. -/
inductive Sign where
  /-- A character. -/
  | char (c : Char)
  /-- The half of the given number. -/
  | half (n : Nat)
deriving DecidableEq

/-- A text that may hold halves of characters. -/
abbrev Spelling := List Sign

namespace Spelling

/-- The spelling of characters. -/
def ofChars (text : List Char) : Spelling := text.map .char

/-- The spelling of a text. -/
def ofString (text : String) : Spelling := ofChars text.toList

/-- The lower-case form of the characters of `run`, the last of which comes first, and of the
spelling after them. -/
def lowerFrom (run : List Char) : Spelling → Spelling
  | [] => ofChars (Text.lower run.reverse)
  | .char c :: rest => lowerFrom (c :: run) rest
  | .half n :: rest => ofChars (Text.lower run.reverse) ++ .half n :: lowerFrom [] rest

/-- The lower-case form of a spelling. -/
def lower (spelling : Spelling) : Spelling := lowerFrom [] spelling

/-- One sign inside the given quotes. -/
def quoteSign (mark : Char) : Sign → List Char
  | .char c => Text.quoteChar mark c
  | .half n => '\\' :: 'u' :: Text.hex 4 n

/-- The characters of a spelling. -/
def chars (spelling : Spelling) : List Char :=
  spelling.filterMap fun
    | .char c => some c
    | .half _ => none

/-- A spelling between quotes, with its halves as escapes. -/
def quote (spelling : Spelling) : List Char :=
  let mark := Text.quoteMark spelling.chars
  mark :: spelling.flatMap (quoteSign mark) ++ [mark]

/-- The characters of the spelling of characters are these. -/
theorem chars_ofChars (text : List Char) : chars (ofChars text) = text := by
  induction text with
  | nil => rfl
  | cons c text ih => exact congrArg (c :: ·) ih

theorem lowerFrom_ofChars (run text : List Char) :
    lowerFrom run (ofChars text) = ofChars (Text.lower (run.reverse ++ text)) := by
  induction text generalizing run with
  | nil => simp [ofChars, lowerFrom]
  | cons c text ih =>
    have := ih (c :: run)
    simp_all [ofChars, lowerFrom]

/-- The lower-case form of a text is the same as a text and as a spelling. -/
theorem lower_ofString (text : String) : lower (ofString text) = ofString (Text.lowered text) := by
  simp [lower, ofString, lowerFrom_ofChars, Text.lowered]

/-- Texts with one spelling are equal. -/
theorem ofString_injective {s t : String} (h : ofString s = ofString t) : s = t := by
  have hchars := congrArg chars h
  rw [ofString, ofString, chars_ofChars, chars_ofChars] at hchars
  exact String.toList_inj.1 hchars

end Spelling

end CueSheet
