import CueSheet.Process

/-!
# The log

On request every step of the processing leaves a line in the log: its level, the part of the program
that it belongs to, and what has been done. The log tells how far the processing has come, also
where a fault has ended it.
-/

namespace CueSheet

/-- The level of a log line. -/
inductive LogLevel where
  /-- A detail of the processing. -/
  | debug
  /-- A result of the processing. -/
  | info
  /-- Something that needs attention. -/
  | warning
deriving DecidableEq

/-- The name of a level. -/
def LogLevel.name : LogLevel → String
  | debug => "DEBUG"
  | info => "INFO"
  | warning => "WARNING"

/-- How the log is set up. -/
structure LogSetup where
  /-- The name of the log. -/
  logger : String
  /-- The least level that is written. -/
  level : LogLevel
  /-- The number of places that lines are written to. -/
  handlers : Nat
  /-- Whether lines are passed on to other logs. -/
  propagates : Bool
deriving DecidableEq

/-- Sets the log up, in place of any setup before. -/
def LogSetup.ofVerbose (verbose : Bool) : LogSetup :=
  ⟨"mmsl", if verbose then .debug else .warning, 1, false⟩

/-- A line of the log. -/
structure LogLine where
  /-- The level. -/
  level : LogLevel
  /-- The part of the program. -/
  part : String
  /-- What has been done. -/
  text : String
deriving DecidableEq

namespace LogLine

/-- A log line in writing, as the lines that it takes: the name of a document may have line ends. -/
def write (line : LogLine) : List String :=
  let text := s!"{line.level.name} - mmsl.{line.part} - {line.text}"
  (Text.pieces (· == '\n') text.toList).map fun piece => String.ofList (Text.dropReturn piece)

/-- A line of the debugging level. -/
def debug (part text : String) : LogLine := ⟨.debug, part, text⟩

end LogLine

namespace Log

/-- The log of loading the catalog. -/
def ofCatalog (files : Files) (config : Config) : List LogLine :=
  match config.catalogPath with
  | none => []
  | some path =>
    match Catalog.load files path with
    | .ok names => [.debug "registry" s!"Loaded {names.size} cue names from {path}"]
    | .error _ => []

/-- Whether a line belongs to the heading of a document. -/
def isHeading : Line → Bool
  | .blank | .header .. => true
  | _ => false

/-- Whether a document opens its first section without a label, once its headers are resolved. -/
def opensImplicitly (config : Config) (lines : List Line) : Bool :=
  match lines.dropWhile isHeading with
  | [] | .sectionStart _ :: _ => false
  | _ =>
    match Document.run .binary64 config (.heading []) 1 (lines.takeWhile isHeading) with
    | .ok (.heading headers, _) =>
      match Settings.resolve .binary64 config headers with
      | .ok _ => true
      | .error _ => false
    | _ => false

/-- The log of validating a song. -/
def ofValidation (config : Config) (names : Option Namespace) (source : String)
    (document : Document) : List LogLine :=
  match validate .binary64 config names document.song with
  | .error _ => []
  | .ok diagnostics =>
    let count := diagnostics.length
    let isFatal := (document.diagnostics ++ diagnostics).any Diagnostic.isFatal
    .debug "validator" s!"Validation found {count} diagnostics" ::
      if isFatal then [⟨.info, "pipeline", s!"{source}: fatal diagnostics, no IR emitted"⟩] else []

/-- The log of reading and validating a text. -/
def ofLines (config : Config) (names : Option Namespace) (source : String) (text : List Char) :
    List LogLine :=
  let lines := Document.linesOf text
  let label := Text.quoted Document.implicitLabel
  let opening :=
    if opensImplicitly config lines then
      [LogLine.debug "parser" s!"Content before the first section, opened implicit {label}"]
    else []
  match Document.read .binary64 config text with
  | .error _ => opening
  | .ok document =>
    let count := lines.length
    let sections := document.song.sections.length
    opening ++ .debug "parser" s!"Parsed {count} lines into {sections} sections" ::
      ofValidation config names source document

/-- The log of processing a text with the settings. -/
def ofProcess (files : Files) (config : Config) (source : String) (text : List Char) :
    List LogLine :=
  match config.namespace? files with
  | .error _ => []
  | .ok names =>
    ofCatalog files config ++
      if (excessLines? config text).isSome then [] else ofLines config names source text

/-- The log of laying a song out in time. -/
def ofEvents (outcome : Outcome) : List LogLine :=
  match outcome.content with
  | none => []
  | some content =>
    match Timeline.walk .binary64 outcome.maxRepeat content.song with
    | .error _ => []
    | .ok walk =>
      let segments := content.tempoMap.segments
      let offsets :=
        match TempoMap.computeOffsets .binary64 segments with
        | .error _ => []
        | .ok _ =>
          let count := segments.length
          if walk.happenings.isEmpty then []
          else [LogLine.debug "tempo" s!"Rebuilt tempo offsets for {count} segments"]
      let scheduled :=
        match outcome.events none, walk.cursor.shown with
        | .ok events, .ok cursor =>
          let count := events.length
          [LogLine.debug "scheduler" s!"Scheduled {count} events, final cursor at beat {cursor}"]
        | _, _ => []
      offsets ++ scheduled

end Log

end CueSheet
