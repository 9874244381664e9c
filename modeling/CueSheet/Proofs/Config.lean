import CueSheet.Config
import CueSheet.Proofs.Numeric.Order

/-!
# The numbers of a configuration

The tempos of a configuration have to meet other real numbers, and its counts are written. A
configuration is kept if the first goes well for every tempo (`Config.IsKept`), as the standard one
is, and bounded if the second goes well for its numbers of beats and of lines (`Config.IsBounded`).
-/

namespace CueSheet.Config

/-- The tempos of the configuration can meet real numbers. -/
structure IsKept (config : Config) : Prop where
  /-- The tempo of a document that names none. -/
  defaultBpm : config.defaultBpm.val.IsKept
  /-- The tempo in place of the one that a document names. -/
  bpm : ∀ tempo ∈ config.bpm, tempo.val.IsKept

/-- The standard tempo can meet real numbers. -/
theorem isKept_standard : Config.standard.IsKept := by
  refine ⟨?_, nofun⟩
  show |((120 : ℤ) : ℚ)| < overflowAt
  decide +kernel

/-- The counts of a configuration have no more digits than are written, and there is a greatest number
of lines. -/
structure IsBounded (config : Config) : Prop where
  /-- The number of beats in a bar of a document that names none. -/
  defaultBeatsPerBar : config.defaultBeatsPerBar.val < 10 ^ digitLimit
  /-- The number of beats in a bar in place of the one that a document names. -/
  beatsPerBar : ∀ count ∈ config.beatsPerBar, count.val < 10 ^ digitLimit
  /-- The greatest number of lines. -/
  maxLines : ∃ limit, config.maxLines = some limit ∧ limit.val < 10 ^ digitLimit

end CueSheet.Config
