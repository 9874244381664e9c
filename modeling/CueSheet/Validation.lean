import CueSheet.Config
import CueSheet.Cue.Parameter
import CueSheet.Diagnostic
import CueSheet.Namespace
import CueSheet.Tempo.Segment

/-!
# Validation of songs

A song is checked as a whole, and every problem is reported. The song itself is checked first, then
its tempo map, then its cues in order. Of a cue the name is checked first, then the parameters that
have bounds of their own, and then all parameters in order, each against the first rule that
concerns its key.
-/

namespace CueSheet.Validation

open Text (lowered)

/-- Whether a character is a letter or a digit of ASCII. -/
def isNameStart (c : Char) : Bool := c.isAlphanum

/-- Whether a character may stand in the name of a cue. -/
def isNameChar (c : Char) : Bool := c.isAlphanum || c == '_' || c == '.' || c == '-'

/-- Whether a text is the name of a cue: characters of names, the first of them a letter or a digit.
One line feed may follow it. -/
def isCueName (name : String) : Bool :=
  match dropFinalFeed name.toList with
  | [] => false
  | first :: rest => isNameStart first && rest.all isNameChar

/-- What the keys of extensions start with. -/
def extensionMark : List Char := ['x', '-']

/-- Whether a character may stand in the key of an extension. -/
def isExtensionChar (c : Char) : Bool := c.isLower || c.isDigit || c == '_' || c == '-'

/-- Whether a text is the key of an extension. One line feed may follow it. -/
def isExtensionKey (key : String) : Bool :=
  match dropFinalFeed key.toList with
  | 'x' :: '-' :: first :: rest => (first.isLower || first.isDigit) && rest.all isExtensionChar
  | _ => false

/-- The keys under which times are stored in beats. -/
def beatKeys : List String := TimingKey.writtenAs.map (·.1)

/-- The keys of parameters from zero to one. -/
def unitKeys : List String := ["intensity", "volume"]

/-- The keys whose bounds are checked on their own. -/
def rangedKeys : List String := ["repeat", "pan"] ++ unitKeys

/-- The names of positions in the stereo field. -/
def panPositions : List String := ["left", "center", "right"]

/-- Whether a quantity lies between two whole numbers. -/
def isBetween (low high : Int) (x : Number) : Bool := (Number.int low).le x && x.le (.int high)

/-- Whether a value is a tempo. -/
def isTempo (value : Value) : Bool := value.number?.any (·.isTempo)

/-- Whether a value is a whole number of at least one. -/
def isCount : Value → Bool
  | .number (.int n) => 1 ≤ n
  | _ => false

/-- The problems of a song as a whole. -/
def songProblems (song : Song) : Except Fault (List Problem) := do
  let empty := if song.sections.isEmpty then [Problem.emptySong] else []
  let bpm ← if isTempo song.bpm then pure [] else do pure [Problem.bpm (← song.bpm.quoted)]
  let beats ←
    if isCount song.beatsPerBar then pure []
    else do pure [Problem.beatsPerBar (← song.beatsPerBar.quoted)]
  return empty ++ bpm ++ beats

/-- The problem of the tempo map of a song. A song without a usable tempo has been reported. -/
def tempoProblems (ρ : Rounding) (song : Song) : Except Fault (List Problem) :=
  if !isTempo song.bpm then return []
  else
    match checkSegments ρ song.segments with
    | .ok _ => return []
    | .error (.conflict why _) => return [.tempoMap why]
    | .error fault => throw fault

/-- The problem of the name of a cue. -/
def nameProblems (names : Option Namespace) (cue : Cue) : List Problem :=
  if cue.name.isEmpty then [.noCueName]
  else if !isCueName cue.name then [.cueName cue.name]
  else if names.all (·.isKnown cue.name cue.category) then []
  else [.unknownCue cue.name]

/-- The problem of a number of repeats. -/
def repeatProblems (limit : Nat) (value : Value) : Except Fault (List Problem) :=
  match value with
  | .number (.int n) => do
    if n < 1 then return [.repeatRange (← value.quoted)]
    else if (limit : Int) < n then return [.repeatLimit limit (← value.shown)]
    else return []
  | .number (.real _) => return [.repeatRange (← value.quoted)]
  | _ => return [.repeatKind (← value.quoted)]

/-- The problem of a parameter from zero to one. -/
def unitProblems (key : String) (value : Value) : Except Fault (List Problem) :=
  match value.number? with
  | some x => do
    if !x.isNumeric then return [.unitKind key (← value.quoted)]
    else if isBetween 0 1 x then return []
    else return [.unitRange key (← value.quoted)]
  | none => return [.unitKind key (← value.quoted)]

/-- The problem of a position in the stereo field. -/
def panProblems (value : Value) : Except Fault (List Problem) :=
  match value with
  | .number (.bool _) | .null | .list _ | .record _ => return [.panKind (← value.quoted)]
  | .number x => do
    if isBetween (-1) 1 x then return [] else return [.panRange (← value.quoted)]
  | .text s => do
    if panPositions.contains (lowered s) then return [] else return [.panKind (← value.quoted)]

/-- Whether a value is a number below zero. -/
def isBelowZero (value : Value) : Bool :=
  match value.number? with
  | some x => x.isNumeric && x.isNegative
  | none => false

/-- The problem of a parameter by the first rule that concerns its key. -/
def parameterProblems (key : String) (value : Value) : Except Fault (List Problem) := do
  if !rangedKeys.contains key && value.isNumeric && !value.isFinite then
    return [.notFinite key (← value.quoted)]
  else if beatKeys.contains key then
    if !value.isNumeric || isBelowZero value then return [.negativeTime key (← value.quoted)]
    else return []
  -- A time under the key that it is written with was not read as a duration.
  else if (TimingKey.ofName? key).isSome then
    if isBelowZero value then return [.negativeTime key (← value.quoted)]
    else return [.notDuration key (← value.quoted)]
  else if extensionMark.isPrefixOf key.toList then
    return if isExtensionKey key then [] else [.extensionKey key]
  else if recognizedKeys.contains key then return []
  else return [.unrecognizedParameter key]

/-- The problems of the parameter of a key, if a cue has it. -/
def problemsAt (params : Params) (key : String)
    (problems : Value → Except Fault (List Problem)) : Except Fault (List Problem) :=
  match params.lookup key with
  | none => return []
  | some value => problems value

/-- The problems found by a check on each element of a list. -/
def gather {α : Type} (check : α → Except Fault (List Problem)) (xs : List α) :
    Except Fault (List Problem) :=
  return (← xs.mapM check).flatten

/-- The problems of a cue. -/
def cueProblems (maxRepeat : Nat) (names : Option Namespace) (cue : Cue) :
    Except Fault (List Problem) := do
  let repeats ← problemsAt cue.params "repeat" (repeatProblems maxRepeat)
  let units ← gather (fun key => problemsAt cue.params key (unitProblems key)) unitKeys
  let pan ← problemsAt cue.params "pan" panProblems
  let others ← gather (fun (key, value) => parameterProblems key value) cue.params
  return nameProblems names cue ++ repeats ++ units ++ pan ++ others

/-- The diagnostics of an item. -/
def itemDiagnostics (config : Config) (names : Option Namespace) :
    Item → Except Fault (List Diagnostic)
  | .cue cue line =>
    return (← cueProblems config.maxRepeat.val names cue).map (Diagnostic.check config.strict line)
  | .performance .. | .lyric .. | .raw _ => return []

end Validation

/-- The diagnostics of a song, given the namespace of known cues if there is one. -/
def validate (ρ : Rounding) (config : Config) (names : Option Namespace) (song : Song) :
    Except Fault (List Diagnostic) := do
  let whole ← Validation.songProblems song
  let tempo ← Validation.tempoProblems ρ song
  let items ← (song.sections.flatMap (·.items)).mapM (Validation.itemDiagnostics config names)
  return (whole ++ tempo).map (Diagnostic.onLine 1) ++ items.flatten

end CueSheet
