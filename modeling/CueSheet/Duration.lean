import CueSheet.Value.Arithmetic

/-!
# Durations in beats

A duration is a decimal literal and, right after it, an optional unit: milliseconds, seconds, beats
or bars. Units are read in any letter case. Music is laid out in beats, so every duration is
converted at the tempo of its song as soon as it is read; a bare number counts seconds. Conversions
take values of any kind, and a value that does not serve as a quantity is a fault.
-/

namespace CueSheet

open Text (strip lower)

/-- The units of durations. -/
inductive TimeUnit where
  /-- Thousandths of a second. -/
  | milliseconds
  /-- Seconds. -/
  | seconds
  /-- Beats. -/
  | beats
  /-- Bars. -/
  | bars
deriving DecidableEq

namespace TimeUnit

/-- The spellings of the units. -/
def spellings : List (String × TimeUnit) := [
  ("ms", milliseconds), ("s", seconds), ("beats", beats), ("beat", beats), ("b", beats),
  ("bars", bars), ("bar", bars)]

/-- The unit of a spelling in lower case. -/
def ofSpelling? (spelling : String) : Option TimeUnit := spellings.lookup spelling

/-- A letter of a unit without its case. The long s counts as an s. -/
def foldLetter (c : Char) : Char := if c = 'ſ' then 's' else c.toLower

/-- Whether a text is a unit in some letter case. -/
def isSpelling (text : List Char) : Bool :=
  (ofSpelling? (String.ofList (text.map foldLetter))).isSome

end TimeUnit

/-- A duration as it is written. -/
structure Duration where
  /-- The number. -/
  amount : Literal
  /-- The spelling of the unit in lower case, if there is a unit. -/
  unit : Option String
deriving DecidableEq

namespace Duration

/-- The duration that a text is, blanks around it aside. -/
def ofText? (text : List Char) : Option Duration :=
  match Literal.scan? (strip text) with
  | none => none
  | some (amount, []) => some ⟨amount, none⟩
  | some (amount, unit) =>
    if TimeUnit.isSpelling unit then some ⟨amount, some (String.ofList (lower unit))⟩ else none

end Duration

/-- The tempo that a value is, which has to be above zero. -/
def requireTempo (value : Value) : Except Fault Number := do
  let bpm ← value.toNumber '>'
  if !bpm.isPositive then throw (.tempoNotPositive (← bpm.shown))
  return bpm

/-- An amount of a unit in beats, at a tempo and a number of beats in a bar. Without a unit, or with
an empty one, the amount is in seconds. -/
def toBeats (ρ : Rounding) (amount : Value) (unit : Option String) (bpm beatsPerBar : Value) :
    Except Fault Number := do
  let bpm ← requireTempo bpm
  let spelling := Text.lowered (match unit with | some "" | none => "s" | some unit => unit)
  match TimeUnit.ofSpelling? spelling with
  | some .milliseconds =>
    Number.div ρ (← Number.mul ρ (← amount.div ρ (.int 1000)) bpm) (.int 60)
  | some .seconds => (← amount.mul ρ bpm).div ρ (.int 60)
  | some .beats => return .real (← amount.toReal ρ)
  | some .bars => return .real (← (← amount.mul ρ beatsPerBar).toReal ρ)
  | none => throw (.unknownUnit spelling)

/-- A duration in beats. -/
def Duration.toBeats (ρ : Rounding) (duration : Duration) (bpm beatsPerBar : Value) :
    Except Fault Number :=
  CueSheet.toBeats ρ (Number.real (duration.amount.real ρ)) duration.unit bpm beatsPerBar

/-- The duration that a text is, in beats; a fault if it is none. -/
def readBeats (ρ : Rounding) (text : List Char) (bpm beatsPerBar : Value) :
    Except Fault Number :=
  match Duration.ofText? text with
  | none => throw (.notDuration (String.ofList text))
  | some duration => duration.toBeats ρ bpm beatsPerBar

/-- A number of beats in seconds at a constant tempo. -/
def beatsToSeconds (ρ : Rounding) (beats bpm : Value) : Except Fault Number := do
  let bpm ← requireTempo bpm
  (← beats.mul ρ (.int 60)).div ρ bpm

/-- The video frame nearest to a time at a frame rate; half a frame goes up. -/
def secondsToFrame (ρ : Rounding) (seconds fps : Value) : Except Fault Int := do
  let frames ← seconds.mul ρ fps
  (← frames.plus ρ (ρ (1 / 2))).truncate

/-- The video frame nearest to a beat at a constant tempo. -/
def beatToFrame (ρ : Rounding) (beats bpm fps : Value) : Except Fault Int := do
  secondsToFrame ρ (← (← beats.mul ρ (.int 60)).div ρ bpm) fps

end CueSheet
