import CueSheet.Duration
import CueSheet.Tempo.Map

/-!
# Timelines

A song is laid out in time by a walk through its sections and items with a cursor that counts beats.
Sections, directions and lyrics happen at the cursor and leave it where it is. A cue happens at its
own start if it has a usable one, and then leaves the cursor alone; otherwise it happens at the
cursor and moves it on by its duration, as often as it repeats. The entries of the walk are sorted
by beat, with entries on one beat in the order of the walk, and each is timed against a tempo map.
-/

namespace CueSheet

/-- What happens at a point in time. -/
inductive Happening where
  /-- A section starts. -/
  | sectionStart (id label : String) (line : Int)
  /-- A direction is given. -/
  | performance (sectionId text : String) (line : Int)
  /-- A line is sung. -/
  | lyric (sectionId text : String) (line : Int)
  /-- A cue is triggered, as the repetition of the given index if it repeats. -/
  | cue (sectionId : String) (cue : Cue) (line : Int) (repetition : Option Nat)
deriving DecidableEq

namespace Happening

/-- The name of the kind of a happening. -/
def kind : Happening → String
  | sectionStart .. => "section"
  | performance .. => "performance"
  | lyric .. => "lyric"
  | cue .. => "cue"

/-- The details of a happening in order. -/
def details : Happening → List (String × Value)
  | sectionStart id label line =>
    [("section_id", .text id), ("label", .text label), ("line", .int line)]
  | performance id text line | lyric id text line =>
    [("section_id", .text id), ("line", .int line), ("text", .text text)]
  | cue id c line repetition =>
    [("section_id", .text id), ("line", .int line), ("name", .text c.name),
      ("category", .ofText? c.category), ("params", .record c.params),
      ("args", .ofTexts c.args)] ++
      repetition.toList.map fun (index : Nat) => ("repeat_index", .int index)

end Happening

/-- A happening on a beat, with its place in the walk. -/
structure Entry where
  /-- The beat. -/
  beat : Number
  /-- How many entries are before it in the walk. -/
  order : Nat
  /-- What happens. -/
  happening : Happening
deriving DecidableEq

/-- An instruction for renderers at a point in time. -/
structure Event (α : Type := Number) where
  /-- The beat. -/
  beats : α
  /-- The time in seconds. -/
  seconds : α
  /-- The kind of the instruction. -/
  kind : String
  /-- Its details in order. -/
  payload : List (String × Value)

namespace Timeline

/-- The number of beats that a value is if it can be used as one: a finite number of at least zero.
-/
def usable? (ρ : Rounding) : Value → Except Fault (Option Number)
  | .number (.real x) =>
    return if x.isFinite && !(Number.real x).isNegative then some (.real x) else none
  | .number (.int n) => do
    if n < 0 then return none else return some (.real (← (Number.int n).toReal ρ))
  | .number (.bool _) | .null | .text _ | .list _ | .record _ => return none

/-- The number of beats of a parameter, if the cue has it and it can be used. -/
def usableParam? (ρ : Rounding) (params : Params) (key : String) :
    Except Fault (Option Number) :=
  match params.lookup key with
  | some value => usable? ρ value
  | none => return none

/-- The duration of a cue in beats; zero if it has none that can be used. -/
def duration (ρ : Rounding) (params : Params) : Except Fault Number := do
  let usable ← usableParam? ρ params "duration_beats"
  return (usable.filter (·.isPositive)).getD (.real (.finite 0))

/-- How often a cue happens; once if it has no number of repeats within the limit. -/
def repeats (limit : Nat) (params : Params) : Nat :=
  match params.lookup "repeat" with
  | some (.number (.int n)) => if 1 ≤ n ∧ n ≤ limit then n.toNat else 1
  | _ => 1

/-- The beats on which a cue happens that starts on a beat, each with its index if it repeats. -/
def beatsOf (ρ : Rounding) (start duration : Number) (times : Nat) :
    Except Fault (List (Number × Option Nat)) :=
  if duration.isPositive && 1 < times then
    (List.range times).mapM fun (index : Nat) => do
      return (← Number.add ρ start (← Number.mul ρ (.int index) duration), some index)
  else return [(start, none)]

/-- What a part of the walk leaves: the cursor, and the happenings with their beats in order. -/
structure Walk where
  /-- The cursor. -/
  cursor : Number
  /-- The happenings. -/
  happenings : List (Number × Happening)
deriving DecidableEq

/-- Walks on with another part. -/
def Walk.append (first second : Walk) : Walk :=
  ⟨second.cursor, first.happenings ++ second.happenings⟩

/-- Walks through a cue. -/
def walkCue (ρ : Rounding) (maxRepeat : Nat) (sectionId : String) (cursor : Number) (cue : Cue)
    (line : Int) : Except Fault Walk := do
  let duration ← duration ρ cue.params
  let times := repeats maxRepeat cue.params
  let start? ← usableParam? ρ cue.params "start_beats"
  let beats ← beatsOf ρ (start?.getD cursor) duration times
  let happenings := beats.map fun (beat, index) => (beat, Happening.cue sectionId cue line index)
  match start? with
  -- A start of its own leaves the cursor alone.
  | some _ => return ⟨cursor, happenings⟩
  | none =>
    let advance ← Number.mul ρ duration (.int times)
    return ⟨← Number.add ρ cursor advance, happenings⟩

/-- Walks through an item. -/
def walkItem (ρ : Rounding) (maxRepeat : Nat) (sectionId : String) (cursor : Number) :
    Item → Except Fault Walk
  | .performance text line => return ⟨cursor, [(cursor, .performance sectionId text line)]⟩
  | .lyric text line => return ⟨cursor, [(cursor, .lyric sectionId text line)]⟩
  | .cue cue line => walkCue ρ maxRepeat sectionId cursor cue line
  | .raw _ => throw (.noProperty .text "line")

/-- Walks through items. -/
def walkItems (ρ : Rounding) (maxRepeat : Nat) (sectionId : String) (cursor : Number) :
    List Item → Except Fault Walk
  | [] => return ⟨cursor, []⟩
  | item :: items => do
    let first ← walkItem ρ maxRepeat sectionId cursor item
    return first.append (← walkItems ρ maxRepeat sectionId first.cursor items)

/-- Walks through sections. -/
def walkSections (ρ : Rounding) (maxRepeat : Nat) (cursor : Number) :
    List Section → Except Fault Walk
  | [] => return ⟨cursor, []⟩
  | part :: parts => do
    let items ← walkItems ρ maxRepeat part.id cursor part.items
    let first : Walk :=
      ⟨items.cursor, (cursor, .sectionStart part.id part.label part.line) :: items.happenings⟩
    return first.append (← walkSections ρ maxRepeat first.cursor parts)

/-- Walks through a song from beat zero. -/
def walk (ρ : Rounding) (maxRepeat : Nat) (song : Song) : Except Fault Walk :=
  walkSections ρ maxRepeat (.real (.finite 0)) song.sections

/-- The happenings of a walk as entries, numbered in order. -/
def entries (walk : Walk) : List Entry :=
  walk.happenings.zipIdx.map fun ((beat, happening), order) => ⟨beat, order, happening⟩

/-- Entries in order of their beats; entries on one beat stay in order. -/
def sorted (entries : List Entry) : List Entry :=
  entries.mergeSort fun first second => !second.beat.lt first.beat

/-- The event of an entry, timed against a tempo map. -/
def time (ρ : Rounding) (entry : Entry) : TempoM Event := do
  let seconds ← TempoMap.secondsAt ρ entry.beat
  return ⟨entry.beat, seconds, entry.happening.kind,
    entry.happening.details ++ [("order", .int entry.order)]⟩

/-- The events of a song, timed against a tempo map. -/
def schedule (ρ : Rounding) (maxRepeat : Nat) (map : TempoMap) (song : Song) :
    Except Fault (List Event) := do
  let entries := sorted (entries (← walk ρ maxRepeat song))
  ((entries.mapM (time ρ)).run.run map).1

/-- The events of a song, timed against its own tempo map. -/
def scheduleAlone (ρ : Rounding) (maxRepeat : Nat) (song : Song) : Except Fault (List Event) := do
  schedule ρ maxRepeat (← TempoMap.ofSong ρ song) song

end Timeline

/-- The event with its points in time read in another way. -/
def Event.map {α β : Type} (f : α → β) (event : Event α) : Event β :=
  ⟨f event.beats, f event.seconds, event.kind, event.payload⟩

/-- An event as a record, with its video frame if a frame rate is given. -/
def Event.toValue (ρ : Rounding) (fps : Option Value) (event : Event Value) :
    Except Fault Value := do
  let frame ← match fps with
    | none => pure []
    | some fps => do pure [("frame", Value.int (← secondsToFrame ρ event.seconds fps))]
  return .record ([
    ("timeBeats", event.beats),
    ("timeSeconds", event.seconds),
    ("type", .text event.kind),
    ("payload", .record event.payload)] ++ frame)

/-- Events as a list of records. -/
def eventsToValue (ρ : Rounding) (fps : Option Value) (events : List (Event Value)) :
    Except Fault Value := return .list (← events.mapM (Event.toValue ρ fps))

end CueSheet
