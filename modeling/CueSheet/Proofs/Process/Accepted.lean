import CueSheet.Proofs.Process.Schedule
import CueSheet.Proofs.Validation.Song

/-!
# Which documents are accepted

A sound song is validated without an error exactly if it has sections, its segments in effect make a
tempo map, and no item is refused (`validate_iff_passes`). A document is accepted exactly if it
has no more lines than are accepted, nothing but warnings is reported when it is read, and the song
that is read is validated without an error (`processWith_iff_passes`).
-/

namespace CueSheet

open Document (AreWarnings)

variable {config : Config} {names : Option Namespace} {song : Song} {source : String}
  {text : List Char}

/-- A sound song is validated without an error exactly if it passes. -/
theorem validate_iff_passes (h : song.IsSound) :
    (∃ problems, validate .binary64 config names song = .ok problems ∧ AreWarnings problems) ↔
      song.Passes config names := by
  obtain ⟨bpm, hbpm, htempo, -⟩ := h.bpm
  obtain ⟨beats, hbeats, hpositive⟩ := h.beatsPerBar
  have hisTempo : Validation.isTempo song.bpm = true := by rw [hbpm]; exact htempo
  have hisCount : Validation.isCount song.beatsPerBar = true :=
    Validation.isCount_iff.2 ⟨beats, hbeats, by exact_mod_cast hpositive⟩
  rw [exists_validate_iff_passes, and_iff_right hisTempo, and_iff_right hisCount]

/-- An outcome with content is in order exactly if its diagnostics are warnings. -/
theorem isOk_stamp_iff {diagnostics : List Diagnostic} (content : Content) :
    (Outcome.stamp config source diagnostics (some content)).isOk = true ↔
      AreWarnings diagnostics := by
  rw [Outcome.isOk, Outcome.stamp, Option.isSome_some, Bool.true_and, Bool.not_eq_true',
    List.any_map, List.any_eq_false, AreWarnings]
  exact forall₂_congr fun d _ => Bool.eq_false_iff.symm

/-- No warning is fatal. -/
theorem any_isFatal_of_areWarnings {diagnostics : List Diagnostic} (h : AreWarnings diagnostics) :
    diagnostics.any Diagnostic.isFatal = false := by
  refine List.any_eq_false.2 fun d hd hfatal => ?_
  have herror := h d hd
  rw [Diagnostic.isError, of_decide_eq_true hfatal] at herror
  cases herror

/-- A document is accepted, with content, exactly if it has no more lines than are accepted, it is
read with warnings at most, and its song passes; the content is the song, its canonical form and its
tempo map. -/
theorem processWith_iff_passes (hconfig : config.IsKept) (names : Option Namespace) (source : String)
    (text : List Char) (content : Content) :
    (∃ outcome, processWith config names source text = .ok outcome ∧ outcome.isOk = true ∧
      outcome.content = some content) ↔
      excessLines? config text = none ∧ content.song.Passes config names ∧
        content.song.toIr = .ok content.ir ∧
        TempoMap.ofSong .binary64 content.song = .ok content.tempoMap ∧
        ∃ document, Document.read .binary64 config text = .ok document ∧
          document.song = content.song ∧ AreWarnings document.diagnostics := by
  constructor
  · rintro ⟨outcome, houtcome, hok, hcontent⟩
    have hhas := hasContent_of_processWith houtcome hcontent
    obtain ⟨document, problems, hread, hsong, hvalidate, -, rfl⟩ := hhas.read
    obtain ⟨hdocument, hproblems⟩ := List.forall_mem_append.1 ((isOk_stamp_iff content).1 hok)
    have hsound := Document.isSound_of_read hconfig hread
    rw [hsong] at hsound
    exact ⟨hhas.lines, (validate_iff_passes hsound).1 ⟨problems, hvalidate, hproblems⟩, hhas.ir,
      hhas.tempoMap, document, hread, hsong, hdocument⟩
  · rintro ⟨hlines, hpasses, hir, hmap, document, hread, hsong, hdocument⟩
    have hsound := Document.isSound_of_read hconfig hread
    rw [← hsong] at hpasses hir hmap
    obtain ⟨problems, hvalidate, hproblems⟩ := (validate_iff_passes hsound).2 hpasses
    have hwarnings : AreWarnings (document.diagnostics ++ problems) := hdocument.append hproblems
    -- Warnings are not fatal, so processing goes on to the tempo map and the canonical form.
    have hfatal := any_isFatal_of_areWarnings hwarnings
    refine ⟨.stamp config source (document.diagnostics ++ problems) (some content), ?_,
      (isOk_stamp_iff content).2 hwarnings, rfl⟩
    rw [processWith, hlines]
    dsimp only
    rw [processLines, hread, ok_bind, hvalidate, ok_bind]
    dsimp only
    rw [if_neg (by simp [hfatal]), hmap]
    dsimp only
    rw [hir, ok_bind, hsong]
    rfl

end CueSheet
