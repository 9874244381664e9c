import CueSheet.Song
import CueSheet.Value.Arithmetic
import CueSheet.Value.Written

/-!
# Tempo segments

A tempo map is given by segments in order of their starts, the first of them at beat zero. A song
that declares no tempo change at beat zero starts at its own tempo. Segments are given as values; a
list of them is checked from the front, and the first segment at fault says what is wrong.
-/

namespace CueSheet

/-- Whether a value is the quantity zero. -/
def Value.isZero (value : Value) : Bool := value.number?.any (·.eq (.int 0))

/-- Whether the song declares a tempo change at beat zero. -/
def Song.declaresStart (song : Song) : Bool :=
  song.tempoChanges.any fun segment => segment.start.isZero

/-- The segments in effect for a song: its tempo changes, with its own tempo in front unless a
change is at beat zero. -/
def Song.segments (song : Song) : List (Segment Value) :=
  if song.declaresStart then song.tempoChanges else ⟨.int 0, song.bpm⟩ :: song.tempoChanges

/-- A fault at a segment that starts at the given beat. -/
def conflictAt {α : Type} (start : Value) (why : Conflict) : Except Fault α :=
  throw (.conflict why (some start))

/-- The tempo of a segment, which has to be finite and above zero. -/
def checkTempo (ρ : Rounding) (segment : Segment Value) : Except Fault Number := do
  let bpm ← segment.bpm.toNumber '>'
  if !bpm.isPositive then conflictAt segment.start (.tempo (← bpm.shown))
  if !(← bpm.checkFinite ρ) then conflictAt segment.start (.tempo (← bpm.shown))
  return bpm

/-- The start of a segment, which has to be finite. -/
def checkStart (ρ : Rounding) (start : Value) : Except Fault Number := do
  let beat ← start.toFinite ρ
  match beat with
  | some beat => return beat
  | none => conflictAt start (.start (← start.shown))

/-- A segment has to start at beat zero if it is the first one, and after the one before it
otherwise. -/
def checkPlace (previous : Option Number) (start : Number) : Except Fault Unit :=
  match previous with
  | none => if start.eq (.int 0) then return () else conflictAt start .firstStart
  | some previous => do
    if start.eq previous then conflictAt start (.sameStart (← start.shown))
    if start.lt previous then conflictAt start (.order (← start.shown))

/-- Checks segments, the first of them against the start before it, and reads them as quantities. -/
def checkFrom (ρ : Rounding) (previous : Option Number) :
    List (Segment Value) → Except Fault (List (Segment Number))
  | [] => return []
  | segment :: segments => do
    let bpm ← checkTempo ρ segment
    let start ← checkStart ρ segment.start
    checkPlace previous start
    return ⟨start, bpm⟩ :: (← checkFrom ρ (some start) segments)

/-- Checks that segments form a tempo map, if there are any, and reads them as quantities. -/
def checkSegments (ρ : Rounding) (segments : List (Segment Value)) :
    Except Fault (List (Segment Number)) := checkFrom ρ none segments

end CueSheet
