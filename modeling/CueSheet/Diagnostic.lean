import CueSheet.Fault

/-!
# Diagnostics

Nothing that is wrong in a document stops its processing. Each problem becomes a diagnostic with a
severity, the number of its line and, once it is known, the source that it was found in. A problem
is kept as a cause, and its category, its words and the field that it concerns are functions of the
cause. Numbers in a cause are kept as they are written, because a number too long to be written is a
fault of the computation that reports it.
-/

namespace CueSheet

open Text (quoted)

/-- What kind of rule a problem breaks. -/
inductive Category where
  /-- Markup that was not understood and was kept as text, or dropped. -/
  | syntaxWarning
  /-- A song that does not have the required form. -/
  | schemaViolation
  /-- A number out of bounds. -/
  | rangeViolation
  /-- A cue that is not in the namespace. -/
  | unknownCue
  /-- Tempo segments that form no tempo map. -/
  | tempoMapConflict
  /-- An input that cannot be read. -/
  | ioError
deriving DecidableEq

/-- How much harm a problem does. -/
inductive Severity where
  /-- The document is accepted. -/
  | warning
  /-- The document is refused. -/
  | error
  /-- The document is refused and has no canonical form. -/
  | fatal
deriving DecidableEq

/-- The name of a category. -/
def Category.name : Category → String
  | syntaxWarning => "SyntaxWarning"
  | schemaViolation => "SchemaViolation"
  | rangeViolation => "RangeViolation"
  | unknownCue => "UnknownCue"
  | tempoMapConflict => "TempoMapConflict"
  | ioError => "IOError"

/-- The name of a severity. -/
def Severity.name : Severity → String
  | warning => "warning"
  | error => "error"
  | fatal => "fatal"

/-- The marked kinds of lines, each known by the character that opens it. -/
inductive Marker where
  /-- A header, opened by `@`. -/
  | header
  /-- The start of a section, opened by `[`. -/
  | sectionStart
  /-- A performance direction, opened by `(`. -/
  | performance
  /-- A cue, opened by `<`. -/
  | cue
deriving DecidableEq

/-- The name of a marker. -/
def Marker.name : Marker → String
  | header => "header"
  | sectionStart => "section"
  | performance => "performance"
  | cue => "cue"

/-- The headers whose value has to be a number above zero. -/
inductive TempoHeader where
  /-- The tempo in beats per minute. -/
  | bpm
  /-- The number of beats in a bar, a whole number. -/
  | beatsPerBar
deriving DecidableEq

/-- The field of the song that a header sets. -/
def TempoHeader.field : TempoHeader → String
  | bpm => "bpm"
  | beatsPerBar => "beatsPerBar"

/-- What the value of a header has to be. -/
def TempoHeader.demand : TempoHeader → String
  | bpm => "a number > 0"
  | beatsPerBar => "a positive integer"

/-- What is wrong in a document or around it. -/
inductive Problem where
  /-- A line starts like a marked line and is not one. -/
  | malformedMarker (marker : Marker) (text : String)
  /-- A cue has an odd number of quotes. -/
  | unterminatedQuote
  /-- A parameter of a cue has nothing in front of its equals sign. -/
  | parameterWithoutKey (token : String)
  /-- A cue has a parameter twice. -/
  | duplicateParameter (key : String)
  /-- A header stands after the first section. -/
  | lateHeader (key : String)
  /-- A section has no items. -/
  | emptySection (label : String)
  /-- A header is not known. -/
  | unknownHeader (key : String)
  /-- A header stands a second time; `stored` is the name that it shares with the first one. -/
  | repeatedHeader (key stored : String) (firstLine : Int)
  /-- The time signature cannot be read. -/
  | timeSignature (value : String)
  /-- A header is no number of the required kind. -/
  | tempoHeader (header : TempoHeader) (value : String)
  /-- An entry of the tempo map cannot be read. -/
  | tempoMapEntry (entry : String)
  /-- A song has no sections. -/
  | emptySong
  /-- The tempo of a song is out of range. -/
  | bpm (shown : String)
  /-- The number of beats in a bar is out of range. -/
  | beatsPerBar (shown : String)
  /-- The tempo segments of a song form no tempo map. -/
  | tempoMap (why : Conflict)
  /-- A cue has no name. -/
  | noCueName
  /-- The name of a cue holds a character that names do not have. -/
  | cueName (name : String)
  /-- A cue is not in the namespace. -/
  | unknownCue (name : String)
  /-- The number of repeats is no number. -/
  | repeatKind (shown : String)
  /-- The number of repeats is not a whole number of at least one. -/
  | repeatRange (shown : String)
  /-- The number of repeats is above the limit. -/
  | repeatLimit (limit : Nat) (shown : String)
  /-- A parameter from zero to one is no number. -/
  | unitKind (key shown : String)
  /-- A parameter from zero to one is out of range. -/
  | unitRange (key shown : String)
  /-- A numeric position in the stereo field is out of range. -/
  | panRange (shown : String)
  /-- A position in the stereo field is neither a number nor one of the names. -/
  | panKind (shown : String)
  /-- A parameter is infinite or undefined. -/
  | notFinite (key shown : String)
  /-- A time is below zero, or no number. -/
  | negativeTime (key shown : String)
  /-- A time is not written as a duration. -/
  | notDuration (key shown : String)
  /-- A key of an extension has a wrong form. -/
  | extensionKey (key : String)
  /-- A parameter has no meaning. -/
  | unrecognizedParameter (key : String)
  /-- A document has more lines than are accepted. -/
  | tooManyLines (shown : String) (limit : Nat)
  /-- The settings are not valid; `reason` tells why. -/
  | configuration (reason : String)
  /-- An input cannot be read; `reason` tells which and why. -/
  | unreadable (reason : String)
deriving DecidableEq

namespace Problem

/-- The category of a problem. -/
def category : Problem → Category
  | malformedMarker .. | unterminatedQuote | parameterWithoutKey _ | duplicateParameter _
  | lateHeader _ | emptySection _ | repeatedHeader .. => .syntaxWarning
  | unknownHeader _ | timeSignature _ | tempoHeader .. | emptySong | noCueName | cueName _
  | repeatKind _ | unitKind .. | notDuration .. | extensionKey _ | unrecognizedParameter _
  | tooManyLines .. | configuration _ => .schemaViolation
  | bpm _ | beatsPerBar _ | repeatRange _ | repeatLimit .. | unitRange .. | panRange _ | panKind _
  | notFinite .. | negativeTime .. => .rangeViolation
  | unknownCue _ => .unknownCue
  | tempoMapEntry _ | tempoMap _ => .tempoMapConflict
  | unreadable _ => .ioError

/-- The severity of a problem where nothing makes it stricter. -/
def severity : Problem → Severity
  | malformedMarker .. | unterminatedQuote | parameterWithoutKey _ | duplicateParameter _
  | lateHeader _ | emptySection _ | repeatedHeader .. | unknownHeader _ | unknownCue _
  | unrecognizedParameter _ => .warning
  | timeSignature _ | tempoHeader .. | bpm _ | beatsPerBar _ | noCueName | cueName _
  | repeatKind _ | repeatRange _ | repeatLimit .. | unitKind .. | unitRange .. | panRange _
  | panKind _ | notFinite .. | negativeTime .. | notDuration .. | extensionKey _ => .error
  | emptySong | tempoMapEntry _ | tempoMap _ | tooManyLines .. | configuration _
  | unreadable _ => .fatal

/-- The field of the song, the cue or the settings that a problem concerns. -/
def field : Problem → Option String
  | malformedMarker .. | unterminatedQuote | parameterWithoutKey _ | emptySection _
  | unreadable _ => none
  | duplicateParameter key | lateHeader key | unknownHeader key | repeatedHeader _ key _
  | unitKind key _ | unitRange key _ | notFinite key _ | negativeTime key _ | notDuration key _
  | extensionKey key | unrecognizedParameter key => some key
  | timeSignature _ => some "timeSignature"
  | tempoHeader header _ => some header.field
  | tempoMapEntry _ | tempoMap _ => some "tempoMap"
  | emptySong => some "sections"
  | bpm _ => some "bpm"
  | beatsPerBar _ => some "beatsPerBar"
  | noCueName | cueName _ | unknownCue _ => some "name"
  | repeatKind _ | repeatRange _ | repeatLimit .. => some "repeat"
  | panRange _ | panKind _ => some "pan"
  | tooManyLines .. => some "input"
  | configuration _ => some "config"

/-- A problem in words. -/
def message : Problem → String
  | malformedMarker marker text =>
    s!"Malformed {marker.name} marker, treated as lyric: {quoted text}"
  | unterminatedQuote => "Unterminated quote in cue, stray quote dropped"
  | parameterWithoutKey token => s!"Parameter without a key: {quoted token}"
  | duplicateParameter key => s!"Duplicate parameter {quoted key}, keeping the first value"
  | lateHeader key => s!"Header @{key} after the first section is ignored"
  | emptySection label => s!"Section [{label}] has no items and was dropped"
  | unknownHeader key => s!"Unknown header @{key}"
  | repeatedHeader key _ firstLine =>
    s!"Repeated header @{key}, keeping the value from line {firstLine}"
  | timeSignature value => s!"Invalid time signature {quoted value}, expected N/D"
  | tempoHeader header value =>
    s!"Invalid @{header.field} {quoted value}, must be {header.demand}; using the default"
  | tempoMapEntry entry => s!"Unreadable tempo map entry {quoted entry}, expected beat:bpm"
  | emptySong => "empty song"
  | bpm shown => s!"bpm must be a finite number > 0, got {shown}"
  | beatsPerBar shown => s!"beatsPerBar must be a positive integer, got {shown}"
  | tempoMap why => why.reason
  | noCueName => "Cue has no name"
  | cueName name =>
    s!"Cue name {quoted name} may only contain letters, digits, '_', '.' and '-'"
  | unknownCue name => s!"Unknown cue {quoted name}"
  | repeatKind shown => s!"repeat must be an integer, got {shown}"
  | repeatRange shown => s!"repeat must be an integer >= 1, got {shown}"
  | repeatLimit limit shown => s!"repeat must be at most {limit}, got {shown}"
  | unitKind key shown => s!"{key} must be a number, got {shown}"
  | unitRange key shown => s!"{key} must be between 0 and 1, got {shown}"
  | panRange shown => s!"pan must be between -1 and 1, got {shown}"
  | panKind shown => s!"pan must be left, center, right or a number, got {shown}"
  | notFinite key shown => s!"{key} must be a finite number, got {shown}"
  | negativeTime key shown => s!"{key} must be >= 0, got {shown}"
  | notDuration key shown => s!"{key} is not a duration literal: {shown}"
  | extensionKey key => s!"Malformed extension key {quoted key}"
  | unrecognizedParameter key =>
    s!"Unrecognized cue parameter {quoted key}; prefix vendor keys with 'x-'"
  | tooManyLines shown limit => s!"Input has {shown} lines, more than the limit of {limit}"
  | configuration reason => s!"Invalid configuration: {reason}"
  | unreadable reason => reason

/-- Whether a strict check treats a problem as an error although it is a warning otherwise. -/
def isStrictable : Problem → Bool
  | unknownCue _ | unrecognizedParameter _ => true
  | _ => false

end Problem

/-- A problem with its severity and place. -/
structure Diagnostic where
  /-- What is wrong. -/
  problem : Problem
  /-- How much harm it does. -/
  severity : Severity
  /-- The line that it was found on. -/
  line : Option Int
  /-- The document that it was found in. -/
  source : Option String
deriving DecidableEq

namespace Diagnostic

/-- A problem on a line, with its usual severity and no source. -/
def onLine (line : Int) (problem : Problem) : Diagnostic :=
  ⟨problem, problem.severity, some line, none⟩

/-- A problem on a line, as severe as a check of the given strictness makes it. -/
def check (strict : Bool) (line : Int) (problem : Problem) : Diagnostic :=
  ⟨problem, if strict && problem.isStrictable then .error else problem.severity, some line, none⟩

/-- The diagnostic with a source. -/
def within (source : String) (diagnostic : Diagnostic) : Diagnostic :=
  { diagnostic with source := some source }

/-- Whether a diagnostic refuses its document. -/
def isError (diagnostic : Diagnostic) : Bool := diagnostic.severity ≠ .warning

/-- Whether a diagnostic leaves its document without a canonical form. -/
def isFatal (diagnostic : Diagnostic) : Bool := diagnostic.severity = .fatal

end Diagnostic

end CueSheet
