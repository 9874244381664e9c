import CueSheet.Text.Blank
import CueSheet.Text.Case
import CueSheet.Text.Word
import Std.Data.HashSet

/-!
# Identifiers of sections

The identifier of a section is the slug of its label: the label in lower case without punctuation,
in which blanks and low lines have become single hyphens. Where sections of one song share a slug,
the first has it bare, and each later one gets the least number from two on that makes it different
from all identifiers before it.
-/

namespace CueSheet.SectionId

open Text (isBlank isWord lower)

/-- Whether a character of a label is kept in the slug, as itself or as a hyphen. -/
def isKept (c : Char) : Bool := isWord c || isBlank c || c == '-'

/-- A blank or a low line becomes a hyphen. -/
def hyphenate (c : Char) : Char := if isBlank c || c == '_' then '-' else c

/-- Leaves one hyphen of every run of hyphens. -/
def squeeze : List Char → List Char
  | [] => []
  | c :: rest =>
    let squeezed := squeeze rest
    if c = '-' ∧ squeezed.head? = some '-' then squeezed else c :: squeezed

/-- Drops the hyphens at both ends. -/
def trim (text : List Char) : List Char :=
  ((text.dropWhile (· == '-')).reverse.dropWhile (· == '-')).reverse

/-- The slug of a label. -/
def slugOf (label : List Char) : List Char :=
  match trim (squeeze (((lower label).filter isKept).map hyphenate)) with
  | [] => "section".toList
  | slug => slug

/-- The slug of a label. -/
def slug (label : String) : String := String.ofList (slugOf label.toList)

/-- A slug with a number. -/
def numbered (slug : String) (n : Nat) : String := s!"{slug}-{n}"

/-- The slug with the least number from two on that makes it different from the identifiers in use.
One of so many numbers as there are identifiers is free if the slug itself is in use. -/
def firstFree (used : List String) (slug : String) : String :=
  -- The set holds what the list holds and is faster to ask.
  let taken := Std.HashSet.ofList used
  let free := (List.range used.length).findSome? fun k =>
    let id := numbered slug (k + 2)
    if taken.contains id then none else some id
  free.getD slug

/-- The identifier of a new section: its slug, with a number if the slug is in use. -/
def allocate (used : List String) (label : String) : String :=
  let slug := slug label
  if used.contains slug then firstFree used slug else slug

/-- The identifiers of sections with the given labels, in order. -/
def allocateAll (labels : List String) : List String :=
  labels.foldl (fun used label => used ++ [allocate used label]) []

/-- The search can be stated with the list of identifiers in place of the set made of it. -/
theorem firstFree_eq (used : List String) (slug : String) :
    firstFree used slug =
      ((List.range used.length).findSome? fun k =>
        if used.contains (numbered slug (k + 2)) then none else some (numbered slug (k + 2))).getD
        slug := by
  simp [firstFree]

example : ["Verse 1", "Chorus!", "_ -", "?"].map slug =
    ["verse-1", "chorus", "section", "section"] := by decide +kernel

end CueSheet.SectionId
