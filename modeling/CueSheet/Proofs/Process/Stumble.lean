import CueSheet.Process
import CueSheet.Proofs.Document.Stumble
import CueSheet.Proofs.Ir
import CueSheet.Proofs.Validation

/-!
# Where the processing of a document fails

Everything that is wrong in a document is meant to become a diagnostic. `fails_iff_stumbles` says how
far that goes: without a catalog, processing a document fails exactly if it is read, that is if it
has no more lines than are accepted, and its reading stumbles, or if it has so many lines that their
number is too long to be told. Nothing after the reading fails: neither the validation, whatever it
quotes, nor the canonical form, nor the tempo map, whose conflicts are diagnostics.

The condition `Document.Stumbles` is about numerals of more than 4300 digits, units that are written
with a long s, and bars of so many beats that they are beyond the real numbers.
-/

namespace CueSheet

variable {config : Config} {source : String} {text : List Char}

/-- A sound song has a canonical form. -/
theorem Song.IsSound.not_fails_toIr {song : Song} (h : song.IsSound) : ¬Fails song.toIr :=
  Song.not_fails_toIr fun part hpart item hitem => (h.items part hpart item hitem).isProper

/-- What follows the reading of a document does not fail. -/
theorem fails_processLines_iff (hconfig : config.IsKept) (names : Option Namespace) :
    Fails (processLines config names source text) ↔
      Fails (Document.read .binary64 config text) := by
  unfold processLines
  refine fails_bind_of_total fun document hdocument => ?_
  have hsound := Document.isSound_of_read hconfig hdocument
  rw [fails_bind_of_total]
  · exact not_fails_validate config names hsound
  intro diagnostics _
  dsimp only
  split_ifs
  · exact not_fails_pure _
  split
  · exact not_fails_pure _
  · next fault hno hfault =>
    obtain ⟨why, start, rfl⟩ := TempoMap.conflictsOnly_ofSong hsound fault hfault
    exact absurd rfl (hno why start)
  · rw [fails_bind_of_total fun _ _ => not_fails_pure _]
    exact hsound.not_fails_toIr

/-- A document with more lines than are accepted comes to a diagnostic that tells their number. -/
theorem processWith_of_excessLines? {count limit : ℕ}
    (h : excessLines? config text = some (count, limit)) (names : Option Namespace) :
    processWith config names source text = (do
      let shown ← (Number.int count).shown
      return .stamp config source [.onLine (limit + 1) (.tooManyLines shown limit)] none) := by
  rw [processWith, h]

/-- What is told of too many lines fails exactly if their number has more digits than are written. -/
theorem fails_processWith_iff_of_excessLines? {count limit : ℕ}
    (h : excessLines? config text = some (count, limit)) (names : Option Namespace) :
    Fails (processWith config names source text) ↔ 10 ^ digitLimit ≤ count := by
  rw [processWith_of_excessLines? h, fails_bind_of_total fun _ _ => not_fails_pure _,
    Number.fails_shown_iff, Number.isWritable_int_iff, Int.natAbs_natCast, not_lt]

/-- Without a catalog the known names are those of the settings, and no file is read. -/
theorem process_of_catalogPath (files : Files) (h : config.catalogPath = none) :
    process files config none source text =
      processWith config (config.knownCues.map fun names => .ofNames names []) source text := by
  unfold process Config.namespace?
  rw [h]
  rfl

/-- Reading a document fails exactly if the document stumbles, and processing it fails exactly if it
has no more lines than are accepted and stumbles, or if it has more of them and their number has more
digits than are written. Any other document has a result. -/
theorem fails_iff_stumbles (files : Files) (hconfig : config.IsKept)
    (hcatalog : config.catalogPath = none) (source : String) (text : List Char) :
    (Fails (Document.read .binary64 config text) ↔ Document.Stumbles config text) ∧
      (Fails (process files config none source text) ↔
        excessLines? config text = none ∧ Document.Stumbles config text ∨
          ∃ count limit, excessLines? config text = some (count, limit) ∧
            10 ^ digitLimit ≤ count) := by
  refine ⟨Document.fails_read_iff hconfig, ?_⟩
  rw [process_of_catalogPath files hcatalog]
  cases hexcess : excessLines? config text with
  | some excess =>
    obtain ⟨count, limit⟩ := excess
    rw [fails_processWith_iff_of_excessLines? hexcess]
    simp
  | none =>
    rw [processWith, hexcess]
    dsimp only
    rw [fails_processLines_iff hconfig, Document.fails_read_iff hconfig]
    simp

/-- A cue whose duration has a unit that is written with a long s. -/
def longS : List Char := "<a duration=1ſ>".toList

/-- A unit with a long s is no unit. -/
theorem read_longS :
    Document.read .binary64 .standard longS = .error (.unknownUnit "ſ") := by
  decide +kernel

/-- A document stumbles over the long s, so the standard settings without a catalog come to no result
of it. -/
theorem fails_iff_stumbles_longS :
    Config.standard.IsKept ∧ Config.standard.catalogPath = none ∧
      excessLines? .standard longS = none ∧ Document.Stumbles .standard longS ∧
      Fails (process (fun path => .error (.missing path)) .standard none "song" longS) := by
  obtain ⟨hread, hprocess⟩ := fails_iff_stumbles (fun path => .error (.missing path))
    Config.isKept_standard rfl "song" longS
  have hstumbles := hread.1 ⟨_, read_longS⟩
  have hlines : excessLines? .standard longS = none := by decide +kernel
  exact ⟨Config.isKept_standard, rfl, hlines, hstumbles, hprocess.2 (.inl ⟨hlines, hstumbles⟩)⟩

/-- A malformed document need not have a result: neither reading nor processing gives one here. -/
theorem fails_longS :
    Fails (Document.read .binary64 .standard longS) ∧
      Fails (process (fun path => .error (.missing path)) .standard none "song" longS) := by
  refine ⟨⟨_, read_longS⟩, .unknownUnit "ſ", ?_⟩
  have hlines : excessLines? .standard longS = none := by decide +kernel
  rw [process_of_catalogPath _ rfl, processWith, hlines]
  dsimp only
  rw [processLines, read_longS, error_bind]

end CueSheet
