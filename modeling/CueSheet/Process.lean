import CueSheet.Catalog
import CueSheet.Document
import CueSheet.Ir
import CueSheet.Json.Written
import CueSheet.Render
import CueSheet.Timeline
import CueSheet.Validation

/-!
# Processing of documents

A document is processed in one go: it is read, its song is validated, and unless a diagnostic is
fatal the outcome holds the song, its canonical form and its tempo map. Whatever is wrong in the
document is a diagnostic of the outcome, and the outcome is in order if none of them is an error. A
document with more lines than the settings accept is not read at all, and what is told of it is how
many lines it has.
-/

namespace CueSheet

/-- What is made of a document without fatal diagnostics. -/
structure Content where
  /-- The song. -/
  song : Song
  /-- Its canonical form. -/
  ir : Value
  /-- Its tempo map. -/
  tempoMap : TempoMap

/-- What comes of processing a document. -/
structure Outcome where
  /-- The name of the document. -/
  source : String
  /-- All diagnostics, with the name of the document. -/
  diagnostics : List Diagnostic
  /-- What is made of the document; none after a fatal diagnostic. -/
  content : Option Content
  /-- The greatest number of repeats of a cue. -/
  maxRepeat : Nat

namespace Outcome

/-- An outcome whose diagnostics carry the name of its document. -/
def stamp (config : Config) (source : String) (diagnostics : List Diagnostic)
    (content : Option Content) : Outcome :=
  ⟨source, diagnostics.map (Diagnostic.within source), content, config.maxRepeat.val⟩

/-- Whether the document is accepted: there is content, and no diagnostic is an error. -/
def isOk (outcome : Outcome) : Bool :=
  outcome.content.isSome && !outcome.diagnostics.any Diagnostic.isError

/-- The diagnostics that are no errors. -/
def warnings (outcome : Outcome) : List Diagnostic :=
  outcome.diagnostics.filter (!·.isError)

/-- The canonical form in writing. -/
def irText (outcome : Outcome) : Except Fault String :=
  match outcome.content with
  | none => throw (.noIr outcome.source)
  | some content => Json.writeDocument content.ir

/-- The events of the song, timed against a given tempo map or its own. -/
def events (outcome : Outcome) (map : Option TempoMap) : Except Fault (List Event) :=
  match outcome.content with
  | none => throw (.noSong outcome.source)
  | some content =>
    Timeline.schedule .binary64 outcome.maxRepeat (map.getD content.tempoMap) content.song

/-- The events of the song as a JSON document in writing. -/
def eventsText (outcome : Outcome) (fps : Option Value) : Except Fault String := do
  let events := (← outcome.events none).map (·.map Value.number)
  Json.writeDocument (← eventsToValue .binary64 fps events)

/-- The song as a document; none without a song. -/
def render? (outcome : Outcome) : Option (Except Fault String) :=
  outcome.content.map fun content => Render.song content.song

end Outcome

/-- Whether a document has more lines than are accepted, and how many it has. -/
def excessLines? (config : Config) (text : List Char) : Option (Nat × Nat) :=
  let count := (Text.lines text).length
  match config.maxLines with
  | some limit => if limit.val < count then some (count, limit.val) else none
  | none => none

/-- Processes a text that has no more lines than are accepted. -/
def processLines (config : Config) (names : Option Namespace) (source : String)
    (text : List Char) : Except Fault Outcome := do
  let document ← Document.read .binary64 config text
  let diagnostics := document.diagnostics ++ (← validate .binary64 config names document.song)
  if diagnostics.any Diagnostic.isFatal then return .stamp config source diagnostics none
  -- A tempo map that cannot be built is a fatal diagnostic, whoever finds it.
  match TempoMap.ofSong .binary64 document.song with
  | .error (.conflict why _) =>
    return .stamp config source (diagnostics ++ [.onLine 1 (.tempoMap why)]) none
  | .error fault => throw fault
  | .ok tempoMap =>
    return .stamp config source diagnostics (some ⟨document.song, ← document.song.toIr, tempoMap⟩)

/-- Processes a text with a given namespace of known cues, if there is one. -/
def processWith (config : Config) (names : Option Namespace) (source : String)
    (text : List Char) : Except Fault Outcome :=
  match excessLines? config text with
  | some (count, limit) => do
    -- The limit is the smaller number, so it can be written if the count can.
    let shown ← (Number.int count).shown
    return .stamp config source [.onLine (limit + 1) (.tooManyLines shown limit)] none
  | none => processLines config names source text

/-- Processes a text. The namespace of known cues is the given one, or that of the settings. -/
def process (files : Files) (config : Config) (names : Option Namespace) (source : String)
    (text : List Char) : Except Fault Outcome := do
  let names ← match names with
    | some names => pure (some names)
    | none => config.namespace? files
  processWith config names source text

/-- Processes the document at a path. -/
def processFile (files : Files) (config : Config) (path : String) : Except Fault Outcome := do
  process files config none path (← readText files path)

/-- Processes documents by a number of workers at once, if it is given; the outcomes are in the
order of the documents. -/
def processMany (files : Files) (config : Config) (workers : Option Int)
    (documents : List (String × List Char)) : Except Fault (List Outcome) := do
  let names ← config.namespace? files
  if workers.any (· ≤ 0) then throw .noWorkers
  documents.mapM fun (source, text) => processWith config names source text

end CueSheet
