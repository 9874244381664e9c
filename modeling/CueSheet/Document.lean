import CueSheet.Cue.Body
import CueSheet.Header
import CueSheet.Line
import CueSheet.SectionId

/-!
# Documents

A document is read line by line in two stages. In the heading, header lines are taken in; any other
line that is not blank ends the heading, resolves the headers and opens the first section, which is
labelled `Intro` if the line is not itself the start of a section. In the body, the start of a
section closes the section before it, which is kept if it has items. What each line adds to the
diagnostics comes out in the order of the lines.
-/

namespace CueSheet

/-- A section that is still being read. -/
structure OpenSection where
  /-- The label. -/
  label : String
  /-- The line on which the section starts. -/
  line : Int
  /-- The items so far. -/
  items : List Item
deriving DecidableEq

/-- How far a document has been read. -/
inductive Reading where
  /-- Only headers so far. -/
  | heading (headers : Headers)
  /-- The headers are resolved and a section is open. -/
  | body (settings : Settings) (closed : List Section) (current : OpenSection)
deriving DecidableEq

/-- What a document says, and the diagnostics of its reading. -/
structure Document where
  /-- The song. -/
  song : Song
  /-- The diagnostics in order. -/
  diagnostics : List Diagnostic
deriving DecidableEq

namespace Document

/-- The label of a section that starts without a label. -/
def implicitLabel : String := "Intro"

/-- Closes a section: it joins the closed ones, or is reported if it has no items. -/
def close (closed : List Section) (current : OpenSection) : List Section × List Diagnostic :=
  if current.items.isEmpty then
    (closed, [.onLine current.line (.emptySection current.label)])
  else
    let id := SectionId.allocate (closed.map (·.id)) current.label
    (closed ++ [⟨id, current.label, current.items, current.line⟩], [])

/-- The items of a line inside a section, and the problems found in them. -/
def lineItems (ρ : Rounding) (settings : Settings) (number : Int) :
    Line → Except Fault (List Item × List Problem)
  | .performanceLyric text lyric =>
    return ([.performance text number, .lyric lyric number], [])
  | .performance text => return ([.performance text number], [])
  | .cue body => do
    let read ← CueBody.read ρ settings.bpm (.int settings.beatsPerBar) body
    return ([.cue read.cue number], read.problems)
  | .lyric text _ => return ([.lyric text number], [])
  | .blank | .header .. | .sectionStart _ => return ([], [])

/-- Adds the items of a line to the open section. -/
def addItems (ρ : Rounding) (settings : Settings) (closed : List Section) (current : OpenSection)
    (number : Int) (line : Line) : Except Fault (Reading × List Diagnostic) := do
  let (items, problems) ← lineItems ρ settings number line
  return (.body settings closed { current with items := current.items ++ items },
    problems.map (.onLine number))

/-- Reads a line that is neither blank nor a header in the heading. -/
def leaveHeading (ρ : Rounding) (config : Config) (headers : Headers) (number : Int)
    (line : Line) : Except Fault (Reading × List Diagnostic) := do
  let (settings, diagnostics) ← Settings.resolve ρ config headers
  match line with
  | .sectionStart label => return (.body settings [] ⟨label, number, []⟩, diagnostics)
  | line =>
    let (reading, more) ← addItems ρ settings [] ⟨implicitLabel, number, []⟩ number line
    return (reading, diagnostics ++ more)

/-- Reads a line of known kind. -/
def readLine (ρ : Rounding) (config : Config) (reading : Reading) (number : Int) (line : Line) :
    Except Fault (Reading × List Diagnostic) :=
  match line, reading with
  | .blank, reading => return (reading, [])
  | .header key value, .heading headers =>
    let (headers, problems) := headers.add key value number
    return (.heading headers, problems.map (.onLine number))
  | .header key _, reading => return (reading, [.onLine number (.lateHeader key)])
  | line, .heading headers => leaveHeading ρ config headers number line
  | .sectionStart label, .body settings closed current =>
    let (closed, diagnostics) := close closed current
    return (.body settings closed ⟨label, number, []⟩, diagnostics)
  | line, .body settings closed current => addItems ρ settings closed current number line

/-- Reads a line; a malformed marker is reported first. -/
def step (ρ : Rounding) (config : Config) (reading : Reading) (number : Int) (line : Line) :
    Except Fault (Reading × List Diagnostic) := do
  let (reading, diagnostics) ← readLine ρ config reading number line
  return (reading, line.problem?.toList.map (.onLine number) ++ diagnostics)

/-- Reads lines of which the first has the given number. -/
def run (ρ : Rounding) (config : Config) (reading : Reading) (number : Int) :
    List Line → Except Fault (Reading × List Diagnostic)
  | [] => return (reading, [])
  | line :: lines => do
    let (reading, diagnostics) ← step ρ config reading number line
    let (reading, more) ← run ρ config reading (number + 1) lines
    return (reading, diagnostics ++ more)

/-- The song of settings and sections. -/
def toSong (settings : Settings) (sections : List Section) : Song where
  title := settings.title
  bpm := .number settings.bpm
  beatsPerBar := .number (.int settings.beatsPerBar)
  key := settings.key
  version := settings.version
  timeSignature := settings.timeSignature
  instruments := settings.instruments
  tempoChanges := settings.tempoChanges.map (·.map .number)
  sections

/-- Ends a document: the heading is resolved if it is all there is, and the open section closes. -/
def finish (ρ : Rounding) (config : Config) : Reading → Except Fault Document
  | .heading headers => do
    let (settings, diagnostics) ← Settings.resolve ρ config headers
    return ⟨toSong settings [], diagnostics⟩
  | .body settings closed current =>
    let (closed, diagnostics) := close closed current
    return ⟨toSong settings closed, diagnostics⟩

/-- The kinds of the lines of a text, byte order marks at its start aside. -/
def linesOf (text : List Char) : List Line := (Text.lines (Text.dropMarks text)).map Line.ofText

/-- Reads a document. -/
def read (ρ : Rounding) (config : Config) (text : List Char) : Except Fault Document := do
  let (reading, diagnostics) ← run ρ config (.heading []) 1 (linesOf text)
  let document ← finish ρ config reading
  return { document with diagnostics := diagnostics ++ document.diagnostics }

/-- The document with a source on every diagnostic. -/
def within (source : String) (document : Document) : Document :=
  { document with diagnostics := document.diagnostics.map (Diagnostic.within source) }

/-- How the reading of a text goes on: after each line its number and the number of all lines. -/
def progress (text : List Char) : List (Nat × Nat) :=
  let total := (linesOf text).length
  (List.range total).map fun k => (k + 1, total)

end Document

end CueSheet
