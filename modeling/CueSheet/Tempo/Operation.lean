import CueSheet.Tempo.Map

/-!
# Operations on a tempo map

Everything that can be done with a tempo map, as a type: adding a segment and asking the questions
that a map answers. An operation that fails leaves the segments as they were.
-/

namespace CueSheet.TempoMap

/-- An operation on a tempo map. -/
inductive Operation where
  /-- Add a segment. -/
  | add (segment : Segment Value)
  /-- List the segments. -/
  | segments
  /-- Find the index of the segment that holds a beat. -/
  | indexAt (beat : Value)
  /-- Find the segment that holds a beat. -/
  | segmentAt (beat : Value)
  /-- Find the tempo at a beat. -/
  | bpmAt (beat : Value)
  /-- Find the time of a beat. -/
  | secondsAt (beat : Value)
  /-- Find the beat at a time. -/
  | beatAt (seconds : Value)
deriving DecidableEq

/-- What an operation answers. -/
inductive Answer where
  /-- The segments in order. -/
  | segments (segments : List (Segment Number))
  /-- One segment. -/
  | segment (segment : Segment Number)
  /-- An index. -/
  | index (index : Int)
  /-- A quantity. -/
  | number (x : Number)
deriving DecidableEq

/-- The point in time that an operation asks about; a fault if it is no quantity. -/
def point (value : Value) : TempoM Number := ExceptT.mk (pure (value.toNumber '<'))

/-- Carries out an operation. -/
def Operation.run (ρ : Rounding) : Operation → TempoM Answer
  | .add segment => do
    let map ← ExceptT.mk (pure (TempoMap.add ρ (← get) segment))
    set map
    return .segments map.segments
  | .segments => return .segments (← get).segments
  | .indexAt beat => do
    let beat ← point beat
    let index ← ExceptT.mk (pure ((← get).indexAt beat))
    return .index index
  | .segmentAt beat => do
    let beat ← point beat
    let segment ← ExceptT.mk (pure ((← get).segmentAt beat))
    return .segment segment
  | .bpmAt beat => do
    let beat ← point beat
    let segment ← ExceptT.mk (pure ((← get).segmentAt beat))
    return .number segment.bpm
  | .secondsAt beat => return .number (← TempoMap.secondsAt ρ (← point beat))
  | .beatAt seconds => return .number (← TempoMap.beatAt ρ (← point seconds))

/-- Carries out operations one after the other. Each has its own answer or fault, and the next one
starts from the map that it leaves. -/
def runAll (ρ : Rounding) (map : TempoMap) : List Operation → List (Except Fault Answer)
  | [] => []
  | operation :: operations =>
    let (answer, map) := ((operation.run ρ).run.run map)
    answer :: runAll ρ map operations

end CueSheet.TempoMap
