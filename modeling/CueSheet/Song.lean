import CueSheet.Value

/-!
# Songs

A song is what a document says: its header fields and its sections, each a list of performance
directions, lyrics and cues in the order in which they stand. The parameters of a cue are pairs of a
key and a value in order of first occurrence. The tempo of a song, its number of beats in a bar and
its tempo changes may be any values, because songs do not come from documents alone; whether they
make sense is for the validator to say.
-/

namespace CueSheet

/-- The tempo that holds from a beat until the next segment starts. -/
structure Segment (α : Type) where
  /-- The beat at which the segment starts. -/
  start : α
  /-- The tempo in beats per minute. -/
  bpm : α
deriving DecidableEq

/-- The segment with its numbers read in another way. -/
def Segment.map {α β : Type} (f : α → β) (segment : Segment α) : Segment β :=
  ⟨f segment.start, f segment.bpm⟩

/-- The parameters of a cue in order of first occurrence. -/
abbrev Params := List (String × Value)

/-- A production trigger. -/
structure Cue where
  /-- What is triggered. -/
  name : String
  /-- What kind of thing is triggered. -/
  category : Option String
  /-- The parameters; times are in beats. -/
  params : Params
  /-- The words that are no parameters. -/
  args : List String
deriving DecidableEq

/-- What stands on a line of a section. -/
inductive Item where
  /-- A direction to the performers. -/
  | performance (text : String) (line : Int)
  /-- A sung line. -/
  | lyric (text : String) (line : Int)
  /-- A cue. -/
  | cue (cue : Cue) (line : Int)
  /-- A text that stands where an item belongs. -/
  | raw (text : String)
deriving DecidableEq

/-- A labelled part of a song. -/
structure Section where
  /-- The identifier, different from that of every other section of the song. -/
  id : String
  /-- The label as it is written. -/
  label : String
  /-- The items in order. -/
  items : List Item
  /-- The line on which the section starts. -/
  line : Int
deriving DecidableEq

/-- A song. -/
structure Song where
  /-- The title. -/
  title : Option String
  /-- The tempo at the start in beats per minute. -/
  bpm : Value
  /-- The number of beats in a bar. -/
  beatsPerBar : Value
  /-- The musical key. -/
  key : Option String
  /-- The version of the markup. -/
  version : String
  /-- The time signature. -/
  timeSignature : Option String
  /-- The instruments. -/
  instruments : List String
  /-- The declared tempo changes. -/
  tempoChanges : List (Segment Value)
  /-- The sections in order. -/
  sections : List Section
deriving DecidableEq

/-- The version of a document that names none. -/
def defaultVersion : String := "1.0"

/-- Whether an item is one that a document can hold. -/
def Item.isProper : Item → Bool
  | .raw _ => false
  | _ => true

end CueSheet
