import CueSheet.Diagnostic
import CueSheet.Text.Case
import CueSheet.Text.Lines
import CueSheet.Text.Word

/-!
# Lines of a cue sheet

Every line has exactly one kind. A header is `@`, a key, blanks and a value; the start of a section
is a label in brackets; a performance direction is a text in parentheses, which a lyric may follow
on the same line; a cue stands between angle brackets; anything else is a lyric. A line that opens
like a marked line and is not one is a lyric too, and is reported.
-/

namespace CueSheet

open Text (isBlank isWord strip collapse lower)

/-- The kind of a line, with what it says. -/
inductive Line where
  /-- Nothing but blanks. -/
  | blank
  /-- A key in lower case and its value. -/
  | header (key value : String)
  /-- The label of a section. -/
  | sectionStart (label : String)
  /-- A performance direction and the lyric after it. -/
  | performanceLyric (performance lyric : String)
  /-- A performance direction. -/
  | performance (text : String)
  /-- The text between the brackets of a cue. -/
  | cue (body : List Char)
  /-- A lyric; `malformed` tells which marker it opens like. -/
  | lyric (text : String) (malformed : Option Marker)
deriving DecidableEq

namespace Line

/-- Whether a character is a letter of ASCII. -/
def isLetter (c : Char) : Bool := c.isAlpha

/-- Whether a character may stand in the key of a header after its first letter. -/
def isKeyChar (c : Char) : Bool := isWord c || c == '-'

/-- The key in lower case and the value of a header, from a line without blanks at its ends. -/
def header? : List Char → Option (String × String)
  | '@' :: first :: rest =>
    let key := first :: rest.takeWhile isKeyChar
    let after := rest.dropWhile isKeyChar
    let value := after.dropWhile isBlank
    -- The value goes on to the end of the line, so a line feed inside it leaves no header.
    if isLetter first && after.head?.any isBlank && !value.isEmpty && !value.contains '\n' then
      some (String.ofList (lower key), String.ofList value)
    else none
  | _ => none

/-- The text between two marks at the start of a line, and the text after them. The text between
them holds neither mark and is not blank. -/
def enclosed? (opening closing : Char) : List Char → Option (List Char × List Char)
  | [] => none
  | c :: rest =>
    let isInner := fun d => d != opening && d != closing
    let inner := rest.takeWhile isInner
    match rest.dropWhile isInner with
    | [] => none
    | d :: after =>
      if c = opening ∧ d = closing ∧ inner.any (!isBlank ·) then some (inner, after) else none

/-- The text between two marks that make up a whole line. -/
def enclosing? (opening closing : Char) (line : List Char) : Option (List Char) :=
  match enclosed? opening closing line with
  | some (inner, []) => some inner
  | _ => none

/-- The label of a section. -/
def sectionStart? (line : List Char) : Option String :=
  (enclosing? '[' ']' line).map fun inner => String.ofList (collapse inner)

/-- A performance direction. -/
def performance? (line : List Char) : Option String :=
  (enclosing? '(' ')' line).map fun inner => String.ofList (collapse inner)

/-- A performance direction and the lyric after it. -/
def performanceLyric? (line : List Char) : Option (String × String) :=
  match enclosed? '(' ')' line with
  | none => none
  | some (inner, after) =>
    let lyric := after.dropWhile isBlank
    if lyric.isEmpty || lyric.head? == some '(' || lyric.contains '\n' then none
    else some (String.ofList (collapse inner), String.ofList lyric)

/-- The body of a cue. -/
def cue? (line : List Char) : Option (List Char) := (enclosing? '<' '>' line).map strip

/-- The marker that a line opens like. -/
def opening? : List Char → Option Marker
  | '@' :: _ => some .header
  | '[' :: _ => some .sectionStart
  | '(' :: _ => some .performance
  | '<' :: _ => some .cue
  | _ => none

/-- The kind of a line that has no blanks at its ends. -/
def ofStripped (line : List Char) : Line :=
  if line.isEmpty then blank
  else if let some (key, value) := header? line then header key value
  else if let some label := sectionStart? line then sectionStart label
  else if let some (text, sung) := performanceLyric? line then performanceLyric text sung
  else if let some text := performance? line then performance text
  else if let some body := cue? line then cue body
  else lyric (String.ofList line) (opening? line)

/-- The kind of a line. -/
def ofText (line : List Char) : Line := ofStripped (strip line)

/-- The problem that a line is reported for. -/
def problem? : Line → Option Problem
  | lyric text (some marker) => some (.malformedMarker marker text)
  | _ => none

end Line

end CueSheet
