import CueSheet.Tempo.Search
import CueSheet.Tempo.Segment

/-!
# Tempo maps

A tempo map converts beats to seconds and back. A beat lies in the last segment that starts at or
before it, and its time is the time of that start, its offset, plus the time from there at the tempo
of the segment. The offsets of all segments are worked out when a time is first asked for and are
kept until a segment is added. Queries run in a state, because they may fill in the offsets; a query
without a result leaves behind what it has filled in.

A segment with an undefined start can be added, and then the search for a beat may end in front of
all segments. Its index is then −1, which stands for the last segment.
-/

namespace CueSheet

/-- A tempo map. -/
structure TempoMap where
  /-- The segments in order. -/
  segments : List (Segment Number)
  /-- The starts of the segments. -/
  starts : List Number
  /-- The times of the starts, once they have been asked for. -/
  offsets : Option (List Number)
deriving DecidableEq

instance : Inhabited (Segment Number) := ⟨⟨.int 0, .int 120⟩⟩

/-- An operation on a tempo map. -/
abbrev TempoM (α : Type) := ExceptT Fault (StateM TempoMap) α

namespace TempoMap

/-- The tempo map of segments; a fault if they form none. -/
def ofSegments (ρ : Rounding) (segments : List (Segment Value)) : Except Fault TempoMap := do
  if segments.isEmpty then throw (.conflict .noSegments none)
  let segments ← checkSegments ρ segments
  return ⟨segments, segments.map (·.start), none⟩

/-- The tempo map of a song; a fault if its segments form none. -/
def ofSong (ρ : Rounding) (song : Song) : Except Fault TempoMap := ofSegments ρ song.segments

/-- The tempo map without the offsets that it has worked out. -/
def forgetOffsets (map : TempoMap) : TempoMap := { map with offsets := none }

/-- The tempo map with a segment more at an index. -/
def insertAt (map : TempoMap) (index : Nat) (segment : Segment Number) : TempoMap where
  segments := map.segments.insertIdx index segment
  starts := map.starts.insertIdx index segment.start
  offsets := none

/-- Adds a tempo change; a fault if one is at that beat already, or if the change makes no sense. -/
def add (ρ : Rounding) (map : TempoMap) (segment : Segment Value) : Except Fault TempoMap := do
  let bpm ← checkTempo ρ segment
  let start ← segment.start.toNumber '<'
  if start.isNegative then conflictAt start .beforeStart
  -- Only the first start that is not before the new one can be equal to it.
  let index := boundary (·.lt start) map.starts
  if map.starts[index]?.any (·.eq start) then conflictAt start (.sameStart (← start.shown))
  return map.insertAt index ⟨start, bpm⟩

/-- The index of the last of the points that are not after a point, as a search finds it; −1 if
there is none. -/
def indexIn (points : List Number) (point : Number) : Int :=
  (boundary (fun p => !point.lt p) points : Int) - 1

/-- The element at an index, where −1 stands for the last one. -/
def atIndex {α : Type} [Inhabited α] (xs : List α) (index : Int) : α :=
  if index < 0 then xs.getLastD default else xs.getD index.toNat default

/-- The index of the segment that holds a beat. -/
def indexAt (map : TempoMap) (beat : Number) : Except Fault Int := do
  if beat.isNegative then throw (.beatBeforeStart (← beat.shown))
  return indexIn map.starts beat

/-- The segment that holds a beat. -/
def segmentAt (map : TempoMap) (beat : Number) : Except Fault (Segment Number) :=
  return atIndex map.segments (← map.indexAt beat)

/-- The time from one beat to another at a tempo. -/
def span (ρ : Rounding) (start beat bpm : Number) : Except Fault Number := do
  Number.div ρ (← Number.mul ρ (← Number.sub ρ beat start) (.int 60)) bpm

/-- The times of the starts of segments, the first of which is given. -/
def offsetsFrom (ρ : Rounding) (offset : Number) :
    List (Segment Number) → Except Fault (List Number)
  | [] | [_] => return [offset]
  | segment :: next :: segments => do
    let later ← Number.add ρ offset (← span ρ segment.start next.start segment.bpm)
    return offset :: (← offsetsFrom ρ later (next :: segments))

/-- The times of the starts of all segments. -/
def computeOffsets (ρ : Rounding) (segments : List (Segment Number)) :
    Except Fault (List Number) := offsetsFrom ρ (.real (.finite 0)) segments

/-- The times of the starts of all segments, worked out once. -/
def offsetTable (ρ : Rounding) : TempoM (List Number) := do
  let map ← get
  match map.offsets with
  | some offsets => return offsets
  | none =>
    let offsets ← ExceptT.mk (pure (computeOffsets ρ map.segments))
    set { map with offsets := some offsets }
    return offsets

/-- The time of a beat. -/
def secondsAt (ρ : Rounding) (beat : Number) : TempoM Number := do
  let map ← get
  let index ← ExceptT.mk (pure (map.indexAt beat))
  let segment := atIndex map.segments index
  let offset := atIndex (← offsetTable ρ) index
  ExceptT.mk (pure (do Number.add ρ offset (← span ρ segment.start beat segment.bpm)))

/-- The beat at a time. -/
def beatAt (ρ : Rounding) (seconds : Number) : TempoM Number := do
  if seconds.isNegative then
    ExceptT.mk (pure (do throw (.secondsBeforeStart (← seconds.shown))))
  let offsets ← offsetTable ρ
  -- Times are looked up in the offsets as beats are in the starts.
  let index := indexIn offsets seconds
  let segment := atIndex (← get).segments index
  ExceptT.mk (pure (do
    let elapsed ← Number.sub ρ seconds (atIndex offsets index)
    let beats ← Number.div ρ (← Number.mul ρ elapsed segment.bpm) (.int 60)
    Number.add ρ segment.start beats))

end TempoMap

end CueSheet
