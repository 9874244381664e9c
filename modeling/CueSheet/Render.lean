import CueSheet.Cue.Parameter
import CueSheet.Tempo.Segment

/-!
# Songs in writing

A song is written back as a document: the headers that differ from what is assumed without them, and
the sections, each with a blank line in front of it. Times of cues are written in beats, so that the
document says the same at every tempo. A text is quoted where it would be read as something else
without quotes. A list or a record is no value that a document can hold; it is written in quotes if
it is empty or holds something that would need them, and cannot be written otherwise.
-/

namespace CueSheet.Render

open Text (isBlank uppered)

/-- Whether a text is read as itself when it stands without quotes as a value or an argument. -/
def standsAlone (text : String) : Except Fault Bool := do
  let chars := text.toList
  if chars.isEmpty || chars.any isBlank || chars.contains '=' then return false
  else
    match ← Value.ofRaw .binary64 chars with
    | .text _ => return true
    | .null | .number _ | .list _ | .record _ => return false

/-- A text in quotes. -/
def inQuotes (text : String) : String := "\"" ++ text ++ "\""

/-- A text, quoted if it has to be. -/
def word (text : String) : Except Fault String := do
  if ← standsAlone text then return text else return inQuotes text

/-- Whether a blank text is among elements; each element in front of it has to be a text. -/
def anyBlank : List Value → Except Fault Bool
  | [] => return false
  | .text s :: rest =>
    if !s.isEmpty && s.toList.all isBlank then return true else anyBlank rest
  | element :: _ => throw (.noProperty element.kind "isspace")

/-- A value that consists of elements. -/
def collection (value : Value) (elements : List Value) : Except Fault String := do
  if elements.isEmpty || (← anyBlank elements) || elements.contains (.text "=") then
    return inQuotes (← value.shown)
  else if elements.contains (.text "\"") then throw (.noProperty value.kind "replace")
  else throw (.notText value.kind)

/-- A value as a parameter of a cue. -/
def value : Value → Except Fault String
  | .null => return inQuotes "None"
  | .number (.bool b) => return if b then "true" else "false"
  | .number x => x.shown
  | .text s => word s
  | .list items => collection (.list items) items
  | .record members => collection (.record members) (members.map fun member => .text member.1)

/-- A number without the fraction of a whole real number. -/
def number (x : Number) : Except Fault String :=
  match x with
  | .real _ => x.normalize.shown
  | _ => x.shown

/-- A value as a number, if it is one. -/
def beats : Value → Except Fault String
  | .number x => number x
  | other => other.shown

/-- A parameter of a cue. Stored times go back to the keys that they are written under. -/
def parameter (param : String × Value) : Except Fault String :=
  match TimingKey.writtenAs.lookup param.1 with
  | some key => return key ++ "=" ++ (← beats param.2) ++ "beats"
  | none => return param.1 ++ "=" ++ (← value param.2)

/-- A cue. -/
def cue (cue : Cue) : Except Fault String := do
  let category := match cue.category with
    | some category => uppered category
    | none => ""
  let params ← cue.params.mapM parameter
  let args ← cue.args.mapM word
  let tokens := ([category, cue.name] ++ params ++ args).filter (!·.isEmpty)
  return "<" ++ " ".intercalate tokens ++ ">"

/-- The lines of an item. -/
def item : Item → Except Fault (List String)
  | .performance text _ => return [s!"({text})"]
  | .lyric text _ => return [text]
  | .cue c _ => return [← cue c]
  | .raw _ => return []

/-- The lines of a section, with a blank line in front. -/
def sectionLines (part : Section) : Except Fault (List String) :=
  return "" :: s!"[{part.label}]" :: (← part.items.mapM item).flatten

/-- A header whose value may be missing or empty. -/
def optionalHeader (name : String) : Option String → List String
  | some "" | none => []
  | some text => [s!"@{name} {text}"]

/-- The header of the tempo changes, if there are any. -/
def tempoMapHeader (song : Song) : Except Fault (List String) := do
  if song.tempoChanges.isEmpty then return []
  let entries ← song.segments.mapM fun segment => do
    return (← beats segment.start) ++ ":" ++ (← beats segment.bpm)
  return ["@TempoMap " ++ ", ".intercalate entries]

/-- The headers of a song. -/
def headers (song : Song) : Except Fault (List String) := do
  let version := if song.version = defaultVersion then [] else [s!"@MMSLVersion {song.version}"]
  let bpm ← song.bpm.shown
  let beatsPerBar ← song.beatsPerBar.shown
  let tempoMap ← tempoMapHeader song
  let instruments :=
    if song.instruments.isEmpty then []
    else ["@Instruments " ++ ", ".intercalate song.instruments]
  return version ++ optionalHeader "Title" song.title ++
    [s!"@BPM {bpm}", s!"@BeatsPerBar {beatsPerBar}"] ++
    optionalHeader "TimeSignature" song.timeSignature ++ optionalHeader "Key" song.key ++
    instruments ++ tempoMap

/-- A song as a document. -/
def song (song : Song) : Except Fault String := do
  let headers ← headers song
  let sections ← song.sections.mapM sectionLines
  return "\n".intercalate (headers ++ sections.flatten) ++ "\n"

end CueSheet.Render
