import CueSheet.Proofs.Config
import CueSheet.Proofs.Document.Content
import CueSheet.Proofs.Process.Accepted
import CueSheet.Proofs.Process.Consistent
import CueSheet.Proofs.Validation.Written

/-!
# What comes of a document can be written

An accepted document has a canonical form, and this is written as JSON (`exists_irText`): the checks
let no infinite and no undefined number pass, and no number is read that is too long to be written.
The diagnostics of a document can be written as well, because the numbers of its lines are not too
long either (`isWritable_of_processWith`): there are at most as many lines as are accepted, or their
number has been told.
-/

namespace CueSheet

open Document (AreWarnings)

variable {config : Config} {names : Option Namespace} {source : String} {text : List Char}
  {outcome : Outcome}

/-- A song that is read can stand in a document. -/
theorem Document.isPlain_of_read (hconfig : config.IsKept) (hbounded : config.IsBounded)
    {document : Document} (h : read .binary64 config text = .ok document) :
    document.song.IsPlain := by
  have hsound := isSound_of_read hconfig h
  obtain ⟨settings, resolved, hresolve, hsong⟩ := settings_of_read h
  have hbeats : settings.beatsPerBar < 10 ^ digitLimit := by
    refine Settings.beatsPerBar_of_resolve (P := fun n => n < 10 ^ digitLimit)
      hbounded.beatsPerBar (fun n hamount hpositive => ?_)
      (fun _ _ _ _ hread => (Settings.of_readSignature hread).2) hbounded.defaultBeatsPerBar hresolve
    have hlt := hamount.kept.isWritable n rfl
    omega
  have hsongBeats : document.song.beatsPerBar = .int settings.beatsPerBar := by rw [hsong]; rfl
  constructor
  · intro x hx
    obtain ⟨bpm, hbpm, -, hkept⟩ := hsound.bpm
    obtain rfl := Value.number.inj (hx.symm.trans hbpm)
    exact hkept.isWritable
  · intro x hx
    obtain rfl := Value.number.inj (hx.symm.trans hsongBeats)
    exact Number.isWritable_int_iff.2 hbeats
  · exact hsound.items
  · intro part hpart cue line hitem
    exact ((sections_isRead hconfig h part hpart).items _ hitem).keys

/-- The canonical form of an accepted document is written. -/
theorem exists_irText (hconfig : config.IsKept) (hbounded : config.IsBounded)
    (h : processWith config names source text = .ok outcome) (hok : outcome.isOk = true) :
    ∃ written, outcome.irText = .ok written := by
  obtain ⟨content, hcontent⟩ := Option.isSome_iff_exists.1 (Bool.and_eq_true_iff.1 hok).1
  have hhas := hasContent_of_processWith h hcontent
  obtain ⟨document, problems, hread, hsong, hvalidate, -, rfl⟩ := hhas.read
  have hplain := Document.isPlain_of_read hconfig hbounded hread
  rw [hsong] at hplain
  have hwarnings := (isOk_stamp_iff content).1 hok
  have hproblems : AreWarnings problems := fun d hd => hwarnings d (List.mem_append_right _ hd)
  have hwritten : ¬Fails (Json.writeDocument content.ir) := by
    rw [Json.fails_writeDocument_iff]
    rintro ⟨x, hx, hlax⟩
    exact hlax (hplain.isStrict ⟨problems, hvalidate, hproblems⟩ hhas.ir hx)
  obtain ⟨written, hwritten⟩ := not_fails_iff.1 hwritten
  exact ⟨written, by rw [Outcome.irText, hcontent]; exact hwritten⟩

/-- A document with an outcome has at most as many lines as can be told. -/
theorem length_lines_lt (hbounded : config.IsBounded)
    (h : processWith config names source text = .ok outcome) :
    (Text.lines text).length < 10 ^ digitLimit := by
  obtain ⟨limit, hlimit, hlt⟩ := hbounded.maxLines
  by_cases hcount : limit.val < (Text.lines text).length
  · -- There are too many lines, but their number has been told.
    have hexcess : excessLines? config text = some ((Text.lines text).length, limit.val) := by
      rw [excessLines?, hlimit]
      exact if_pos hcount
    have hfails : ¬Fails (processWith config names source text) := not_fails_iff.2 ⟨outcome, h⟩
    rwa [fails_processWith_iff_of_excessLines? hexcess, not_le] at hfails
  · omega

/-- The diagnostics of a document stand on lines whose numbers can be written. -/
theorem isWritable_of_processWith (hbounded : config.IsBounded)
    (h : processWith config names source text = .ok outcome) :
    ∀ d ∈ outcome.diagnostics, ∀ line ∈ d.line, (Number.int line).IsWritable := by
  have hlength := length_lines_lt hbounded h
  have hone : 1 < 10 ^ digitLimit := by decide +kernel
  intro d hd line hline
  obtain ⟨found, hfound, hfirst, hlast⟩ := (isConsistent_of_processWith h).lines d hd
  obtain rfl := Option.some.inj (hfound.symm.trans hline)
  rw [Number.isWritable_int_iff]
  omega

end CueSheet
