import CueSheet.Config
import CueSheet.Diagnostic
import CueSheet.Numeric.Literal
import CueSheet.Song
import CueSheet.Text.Blank

/-!
# Headers

The headers of a document stand in front of its first section. Of two headers with one key the first
counts. When the first section starts, or the document ends, the headers are resolved once into the
settings of the song: overrides win over headers, and headers over defaults.
-/

namespace CueSheet

open Text (isBlank isDigit digitValues strip pieces)

/-- The headers that are known. -/
inductive HeaderKey where
  /-- The version of the markup. -/
  | version
  /-- The title. -/
  | title
  /-- The tempo. -/
  | bpm
  /-- The number of beats in a bar. -/
  | beatsPerBar
  /-- The time signature. -/
  | timeSignature
  /-- The musical key. -/
  | musicalKey
  /-- The instruments. -/
  | instruments
  /-- The tempo changes. -/
  | tempoMap
deriving DecidableEq

namespace HeaderKey

/-- The headers by their names in lower case. -/
def named : List (String × HeaderKey) := [
  ("mmslversion", version), ("version", version), ("title", title), ("bpm", bpm),
  ("beatsperbar", beatsPerBar), ("timesignature", timeSignature), ("key", musicalKey),
  ("instruments", instruments), ("tempomap", tempoMap)]

/-- The header of a name in lower case. -/
def ofName? (name : String) : Option HeaderKey := named.lookup name

/-- The full name of a header. -/
def name : HeaderKey → String
  | version => "mmslversion"
  | title => "title"
  | bpm => "bpm"
  | beatsPerBar => "beatsperbar"
  | timeSignature => "timesignature"
  | musicalKey => "key"
  | instruments => "instruments"
  | tempoMap => "tempomap"

end HeaderKey

/-- A header with its place. -/
structure Header where
  /-- Which header it is. -/
  key : HeaderKey
  /-- Its value. -/
  value : String
  /-- Its line. -/
  line : Int
deriving DecidableEq

/-- The headers of a document so far, each key once. -/
abbrev Headers := List Header

namespace Headers

/-- The header of a key. -/
def get? (headers : Headers) (key : HeaderKey) : Option Header :=
  headers.find? fun header => header.key = key

/-- Takes in a header line; an unknown or repeated one is reported instead. -/
def add (headers : Headers) (name value : String) (line : Int) : Headers × List Problem :=
  match HeaderKey.ofName? name with
  | none => (headers, [.unknownHeader name])
  | some key =>
    match headers.get? key with
    | some first => (headers, [.repeatedHeader name key.name first.line])
    | none => (headers ++ [⟨key, value, line⟩], [])

end Headers

/-- What the headers of a document settle for its song. -/
structure Settings where
  /-- The title. -/
  title : Option String
  /-- The tempo at the start. -/
  bpm : Number
  /-- The number of beats in a bar. -/
  beatsPerBar : Nat
  /-- The musical key. -/
  key : Option String
  /-- The version of the markup. -/
  version : String
  /-- The time signature. -/
  timeSignature : Option String
  /-- The instruments. -/
  instruments : List String
  /-- The declared tempo changes. -/
  tempoChanges : List (Segment Number)
deriving DecidableEq

namespace Settings

/-- The names in a list that is separated by commas. -/
def readNames (value : String) : List String :=
  (((pieces (· == ',') value.toList).map strip).filter (!·.isEmpty)).map String.ofList

/-- The text after a separator that may have blanks around it. -/
def afterSeparator? (separator : Char) (text : List Char) : Option (List Char) :=
  match text.dropWhile isBlank with
  | c :: rest => if c = separator then some (rest.dropWhile isBlank) else none
  | [] => none

/-- The two decimal literals of an entry of the tempo map, the beat and the tempo. -/
def entryLiterals? (entry : List Char) : Option (Literal × Literal) := do
  let (beat, rest) ← Literal.scan? entry
  let bpm ← Literal.ofText? (← afterSeparator? ':' rest)
  return (beat, bpm)

/-- The segment of an entry of the tempo map; none if the entry cannot be read. -/
def readEntry (ρ : Rounding) (entry : List Char) : Except Fault (Option (Segment Number)) :=
  match entryLiterals? entry with
  | none => return none
  | some (beat, bpm) =>
    if (beat.real ρ).isFinite && (bpm.real ρ).isFinite then
      return some ⟨← beat.number ρ, ← bpm.number ρ⟩
    else return none

/-- The segments of the entries of a tempo map, or the first entry that cannot be read. -/
def readEntries (ρ : Rounding) :
    List (List Char) → Except Fault (Except String (List (Segment Number)))
  | [] => return .ok []
  | entry :: entries => do
    match ← readEntry ρ entry with
    | none => return .error (String.ofList entry)
    | some segment => return (← readEntries ρ entries).map (segment :: ·)

/-- The declared tempo changes. One entry that cannot be read leaves none of them. -/
def readTempoMap (ρ : Rounding) (value : String) :
    Except Fault (List (Segment Number) × List Problem) := do
  match ← readEntries ρ ((pieces (· == ',') value.toList).map strip) with
  | .ok segments => return (segments, [])
  | .error entry => return ([], [.tempoMapEntry entry])

/-- The digits on the two sides of a time signature. -/
def signatureDigits? (value : List Char) : Option (List Char × List Char) :=
  let upper := value.takeWhile isDigit
  match afterSeparator? '/' (value.dropWhile isDigit) with
  | none => none
  | some lower =>
    if !upper.isEmpty && !lower.isEmpty && lower.all isDigit then some (upper, lower) else none

/-- A time signature as it is kept, with the number of beats in its bar. -/
def readSignature (value : String) : Except Fault (Option (String × Nat) × List Problem) := do
  let refused := (none, [Problem.timeSignature value])
  match signatureDigits? value.toList with
  | none => return refused
  | some (upper, lower) =>
    let beats ← readDigits (digitValues upper)
    if beats = 0 then return refused
    if (← readDigits (digitValues lower)) = 0 then return refused
    return (some (String.ofList (upper ++ '/' :: lower), beats), [])

/-- The number above zero that a header is. -/
def readPositive (ρ : Rounding) (header : TempoHeader) (value : String) :
    Except Fault (Option Number × List Problem) := do
  let refused := (none, [Problem.tempoHeader header value])
  match Literal.ofText? value.toList with
  | none => return refused
  | some literal =>
    if !(literal.real ρ).isFinite then return refused
    let number ← literal.number ρ
    let isAllowed := number.isPositive && (header = .bpm || number.whole?.isSome)
    return if isAllowed then (some number, []) else refused

/-- Reads a header if it is there; problems get its line. -/
def readIfPresent {α : Type} (headers : Headers) (key : HeaderKey)
    (read : String → Except Fault (α × List Problem)) (absent : α) :
    Except Fault (α × List Diagnostic) :=
  match headers.get? key with
  | none => return (absent, [])
  | some header => do
    let (result, problems) ← read header.value
    return (result, problems.map (Diagnostic.onLine header.line))

/-- The tempo of the first declared change at beat zero, unless that is zero. -/
def declaredBpm? (changes : List (Segment Number)) : Option Number :=
  ((changes.find? fun segment => segment.start.eq (.int 0)).map (·.bpm)).filter (·.isPositive)

/-- Resolves the headers of a document. -/
def resolve (ρ : Rounding) (config : Config) (headers : Headers) :
    Except Fault (Settings × List Diagnostic) := do
  let value := fun key => (headers.get? key).map (·.value)
  let (tempoChanges, mapProblems) ← readIfPresent headers .tempoMap (readTempoMap ρ) []
  let (signature, signatureProblems) ← readIfPresent headers .timeSignature readSignature none
  let (headerBpm, bpmProblems) ← readIfPresent headers .bpm (readPositive ρ .bpm) none
  let (headerBeats, beatsProblems) ←
    readIfPresent headers .beatsPerBar (readPositive ρ .beatsPerBar) none
  -- Overrides come first, then headers of their own, then what other headers imply.
  let bpm := (config.bpm.map (·.val)).or (headerBpm.or (declaredBpm? tempoChanges))
  let beatsPerBar :=
    (config.beatsPerBar.map (·.val)).or
      ((headerBeats.bind (·.whole?)).map Int.toNat |>.or (signature.map (·.2)))
  let settings : Settings := {
    title := value .title
    bpm := (bpm.getD config.defaultBpm.val).normalize
    beatsPerBar := beatsPerBar.getD config.defaultBeatsPerBar.val
    key := value .musicalKey
    version := (value .version).getD defaultVersion
    timeSignature := signature.map (·.1)
    instruments := ((value .instruments).map readNames).getD []
    tempoChanges }
  return (settings, mapProblems ++ signatureProblems ++ bpmProblems ++ beatsProblems)

end Settings

end CueSheet
