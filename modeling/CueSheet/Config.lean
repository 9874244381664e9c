import CueSheet.Numeric.Number

/-!
# Settings of a run

The settings say which checks are strict, which cue names are known, which tempo and which number of
beats in a bar hold where a document names none or in place of what it names, and how much input is
accepted. Bounds are part of the types: a tempo is finite and above zero, and a count is at least
one.
-/

namespace CueSheet

/-- Whether a quantity is a tempo: a finite number above zero. -/
def Number.isTempo (x : Number) : Bool := x.isNumeric && x.isFinite && x.isPositive

/-- A finite number above zero. -/
abbrev Tempo := { x : Number // x.isTempo = true }

/-- A whole number of at least one. -/
abbrev Count := { n : Nat // 0 < n }

/-- The settings of a run. -/
structure Config where
  /-- Whether unknown cues and parameters are errors. -/
  strict : Bool
  /-- Cue names that are known; none if names are not checked. -/
  knownCues : Option (List String)
  /-- Where a catalog of known cues is found. -/
  catalogPath : Option String
  /-- The tempo of a document that names none. -/
  defaultBpm : Tempo
  /-- The number of beats in a bar of a document that names none. -/
  defaultBeatsPerBar : Count
  /-- The tempo in place of the one that a document names. -/
  bpm : Option Tempo
  /-- The number of beats in a bar in place of the one that a document names. -/
  beatsPerBar : Option Count
  /-- The greatest number of lines that is accepted; none if there is no limit. -/
  maxLines : Option Count
  /-- The greatest number of repeats of a cue. -/
  maxRepeat : Count

/-- The tempo that holds if nothing else is said. -/
def standardBpm : Tempo := ⟨.int 120, by decide +kernel⟩

/-- The greatest number of repeats if nothing else is said. -/
def standardMaxRepeat : Count := ⟨1000, by decide⟩

/-- The settings that hold if nothing else is said. -/
def Config.standard : Config where
  strict := false
  knownCues := none
  catalogPath := none
  defaultBpm := standardBpm
  defaultBeatsPerBar := ⟨4, by decide⟩
  bpm := none
  beatsPerBar := none
  maxLines := some ⟨10000, by decide⟩
  maxRepeat := standardMaxRepeat

end CueSheet
