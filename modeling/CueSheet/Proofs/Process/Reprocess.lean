import CueSheet.Proofs.Process.Accepted
import CueSheet.Proofs.Render.Song
import CueSheet.Proofs.Render.Validation

/-!
# Accepted documents that are written and processed again

A document that is accepted is meant to have a song that can be written and processed again, with the
same canonical form. `reprocess_same` says that this holds of every song that survives being written
(`Song.Survives`). What does not survive is listed there: numbers that are written next to a power of
ten, lyrics that stand as marked lines once they have a line of their own, and words, keys and
arguments of cues that are read as something else without the quotes that they came with.
-/

namespace CueSheet

open Document (AreWarnings)

variable {config : Config} {names : Option Namespace} {source : String} {text : List Char}
  {outcome : Outcome}

/-! ## Items that pass -/

/-- An item that is read and passes is accepted. -/
theorem Item.Passes.isAccepted {item : Item} (h : item.Passes config names) (hread : item.IsRead) :
    item.IsAccepted := by
  cases item with
  | performance | lyric | raw => trivial
  | cue c line =>
    exact Cue.IsRead.isAccepted hread (Validation.passes_cue_iff.1 h)

/-- An item that is read back passes if the item that was written does. -/
theorem Item.ReadsBack.passes {item read : Item} (h : item.ReadsBack read)
    (hpasses : item.Passes config names) : read.Passes config names := by
  cases item with
  | raw => exact h.elim
  | performance | lyric =>
    cases read with
    | performance | lyric => exact ⟨[], rfl, Document.areWarnings_nil⟩
    | cue | raw => exact h.elim
  | cue c line =>
    cases read with
    | performance | lyric | raw => exact h.elim
    | cue c' line' =>
      obtain ⟨ds, hds, hwarnings⟩ := hpasses
      obtain ⟨problems, hproblems, hds⟩ := bind_eq_ok.1 hds
      obtain rfl := pure_eq_ok_iff.1 hds
      have hback : Validation.cueProblems config.maxRepeat.val names c' = .ok problems :=
        (Cue.ReadsBack.cueProblems_eq h _ _).trans hproblems
      refine ⟨problems.map (Diagnostic.check config.strict line'), ?_, ?_⟩
      · rw [Validation.itemDiagnostics, hback]
        rfl
      · exact List.forall_mem_map.2 fun problem hproblem =>
          List.forall_mem_map.1 hwarnings problem hproblem

/-! ## Songs -/

/-- A song survives only if its settings do. -/
theorem Song.Survives.settings {settings : Settings} {sections : List Section}
    (h : (Document.toSong settings sections).Survives config) : settings.Survives where
  bpm := h.bpm settings.bpm rfl
  beatsPerBar := by exact_mod_cast h.beatsPerBar settings.beatsPerBar rfl
  changes segment hsegment :=
    have hmem : segment.values ∈ (Document.toSong settings sections).tempoChanges :=
      List.mem_map_of_mem hsegment
    ⟨h.tempoChanges _ hmem segment.start (.inl rfl), h.tempoChanges _ hmem segment.bpm (.inr rfl)⟩

/-- Sections that are read back pass if those that were written do. -/
theorem passes_of_readsBack {sections reads : List Section}
    (hpasses : ∀ part ∈ sections, ∀ item ∈ part.items, item.Passes config names)
    (h : List.Forall₂ Section.ReadsBack sections reads) :
    ∀ part ∈ reads, ∀ item ∈ part.items, item.Passes config names := by
  intro read hread item hitem
  obtain ⟨part, hpart, hback⟩ := exists_of_mem_right h hread
  obtain ⟨written, hwritten, hitemBack⟩ := exists_of_mem_right hback.items hitem
  exact hitemBack.passes (hpasses part hpart written hwritten)

/-- A song with sound settings is the same as one with other tempo changes, if the segments in effect
and the sections are the same. -/
theorem Song.same_toSong {settings : Settings} (hsound : settings.IsSound)
    {changes : List (Segment Number)} {sections reads : List Section}
    (hsegments : List.Forall₂ Segment.Same (Document.toSong settings sections).segments
      (Document.toSong { settings with tempoChanges := changes } reads).segments)
    (hsections : List.Forall₂ Section.Same sections reads) :
    (Document.toSong settings sections).Same
      (Document.toSong { settings with tempoChanges := changes } reads) := by
  obtain ⟨-, q, hbpm, -⟩ := Number.isTempo_iff.1 hsound.bpm
  have hbeats : (Number.int settings.beatsPerBar).toRat? = some (settings.beatsPerBar : ℤ) :=
    Number.toRat?_int _
  exact ⟨rfl, rfl, (Number.eq_iff hbpm hbpm).2 rfl, (Number.eq_iff hbeats hbeats).2 rfl, rfl, rfl, rfl,
    hsegments, hsections⟩

/-- A song that is read and passes is written, if it survives, as a document with a song that passes
and has the same canonical form. -/
theorem exists_reread (hconfig : config.IsKept) {document : Document}
    (hread : Document.read .binary64 config text = .ok document)
    (hpasses : document.song.Passes config names) (hsurvives : document.song.Survives config)
    {ir : Value} (hir : document.song.toIr = .ok ir) :
    ∃ written again ir', Render.song document.song = .ok written ∧
      Document.read .binary64 config written.toList = .ok again ∧
      AreWarnings again.diagnostics ∧ again.song.Passes config names ∧
      again.song.toIr = .ok ir' ∧ ir.same ir' = true := by
  obtain ⟨settings, resolved, hresolve, hsong⟩ := Document.settings_of_read hread
  have hsound := Settings.isSound_of_resolve hconfig hresolve
  have hsongSound := Document.isSound_of_read hconfig hread
  have hparts := Document.sections_isRead hconfig hread
  have haccepted : ∀ part ∈ document.song.sections, ∀ item ∈ part.items, item.IsAccepted :=
    fun part hpart item hitem =>
      (hpasses.items part hpart item hitem).isAccepted ((hparts part hpart).items item hitem)
  have hids := (Document.sections_of_read hread).2.1
  generalize document.song.sections = sections at hsong hparts haccepted hids
  rw [hsong] at hpasses hsurvives hir hsongSound ⊢
  -- The song is written, and read again with the same settings and sections that say the same.
  obtain ⟨segments, hsegments, hvalid⟩ := hpasses.segments
  obtain ⟨written, again, hwritten, hagain, hwarnings, hagainSong, hback⟩ :=
    Render.exists_read hconfig (Document.isRead_of_resolve hresolve) hsound
      (Settings.obeys_of_resolve hresolve) hsurvives.settings hparts haccepted hsurvives.items
      hsegments
  obtain ⟨ir', hir'⟩ := not_fails_iff.1 (Document.isSound_of_read hconfig hagain).not_fails_toIr
  have hagainIds := (Document.sections_of_read hagain).2.1
  generalize again.song.sections = reads at hagainSong hback hagainIds
  -- The tempo changes are spelled out, but the segments in effect are the same ones.
  have hbpm : again.song.bpm = (Document.toSong settings sections).bpm := by rw [hagainSong]; rfl
  have hchanges : again.song.tempoChanges =
      if (Document.toSong settings sections).tempoChanges = [] then []
      else (segments.map Segment.normalize).map Segment.values := by
    rw [hagainSong]
    simp only [Document.toSong, List.map_eq_nil_iff]
    split_ifs <;> rfl
  obtain ⟨others, hothers, hvalidOthers, hsegmentsSame⟩ :=
    Song.exists_segments_normalize hsongSound hsegments hvalid hbpm hchanges
  rw [hagainSong] at hothers hsegmentsSame hir'
  have hne : reads ≠ [] := by
    rw [← List.length_pos_iff, ← hback.length_eq, List.length_pos_iff]
    exact hpasses.ne_nil
  refine ⟨written, again, ir', hwritten, hagain, hwarnings, ?_, hagainSong ▸ hir',
    (Song.same_toIr_iff hir hir').2 (Song.same_toSong hsound hsegmentsSame
      (Section.same_of_readsBack haccepted hback hids hagainIds))⟩
  rw [hagainSong]
  exact ⟨hne, ⟨others, hothers, hvalidOthers⟩, passes_of_readsBack hpasses.items hback⟩

/-- An accepted document whose song survives being written is accepted again, with the same canonical
form, once its song is written and processed under any name. -/
theorem reprocess_same (files : Files) (hconfig : config.IsKept) (hcatalog : config.catalogPath = none)
    (source source' : String) (text : List Char) (outcome : Outcome)
    (h : process files config none source text = .ok outcome) (hok : outcome.isOk = true) :
    ∃ content, outcome.content = some content ∧ (content.song.Survives config →
      ∃ written outcome' content', Render.song content.song = .ok written ∧
        process files config none source' written.toList = .ok outcome' ∧ outcome'.isOk = true ∧
        outcome'.content = some content' ∧ content.ir.same content'.ir = true) := by
  obtain ⟨content, hcontent⟩ := Option.isSome_iff_exists.1 (Bool.and_eq_true_iff.1 hok).1
  rw [process_of_catalogPath files hcatalog] at h
  obtain ⟨-, hpasses, hir, -, document, hread, hsong, -⟩ :=
    (processWith_iff_passes hconfig _ source text content).1 ⟨outcome, h, hok, hcontent⟩
  refine ⟨content, hcontent, fun hsurvives => ?_⟩
  rw [← hsong] at hpasses hir hsurvives ⊢
  obtain ⟨written, again, ir, hwritten, hagain, hwarnings, hpassesAgain, hirAgain, hsame⟩ :=
    exists_reread hconfig hread hpasses hsurvives hir
  -- The tempo map of the second run is made of segments that the first run has accepted.
  obtain ⟨segments, hsegments, hvalid⟩ := hpassesAgain.segments
  obtain ⟨outcome', houtcome', hok', hcontent'⟩ :=
    (processWith_iff_passes hconfig _ source' _ ⟨again.song, ir, TempoMap.fresh segments⟩).2
      ⟨hsurvives.lines written hwritten, hpassesAgain, hirAgain,
        TempoMap.ofSegments_eq_ok_iff.2 ⟨segments, hsegments, hvalid, rfl⟩, again, hagain, rfl,
        hwarnings⟩
  refine ⟨written, outcome', _, hwritten, ?_, hok', hcontent', hsame⟩
  rw [process_of_catalogPath files hcatalog, houtcome']

/-- A document with all kinds of items. -/
def fireText : List Char :=
  "@BPM 90\n[Chorus]\n(full) We are the fire!\n<SFX solo duration=2s pan=-0.5 \"big hit\">".toList

/-- The song of the document with all kinds of items. -/
def fireSong : Song where
  title := none
  bpm := .int 90
  beatsPerBar := .int 4
  key := none
  version := "1.0"
  timeSignature := none
  instruments := []
  tempoChanges := []
  sections := [⟨"chorus", "Chorus", [
    .performance "full" 3,
    .lyric "We are the fire!" 3,
    .cue ⟨"solo", some "sfx",
      [("duration_beats", .number (.real (.finite 3))), ("pan", .number (.real (.finite (-1 / 2))))],
      ["big hit"]⟩ 4], 2⟩]

/-- The song of the document with all kinds of items survives. -/
theorem survives_fireSong : fireSong.Survives .standard := by
  have hlyric : Line.ofText "We are the fire!".toList = .lyric "We are the fire!" none := by
    decide +kernel
  have hcue : Cue.Survives ⟨"solo", some "sfx", [("duration_beats", .number (.real (.finite 3))),
      ("pan", .number (.real (.finite (-1 / 2))))], ["big hit"]⟩ := by
    have hraw : Value.ofRaw .binary64 "big hit".toList = .ok (.text "big hit") := by decide +kernel
    refine ⟨nofun, ?_, ?_, by decide⟩
    -- The length is a stored time, and the place in the stereo field is not.
    · rw [List.forall_mem_cons, List.forall_mem_singleton]
      constructor
      · rw [SurvivesParam, if_pos (by decide)]
        rintro x ⟨⟩
        exact ⟨by decide +kernel, nofun⟩
      · rw [SurvivesParam, if_neg (by decide)]
        refine ⟨fun hstuck => hstuck, ?_⟩
        rintro x ⟨⟩
        decide +kernel
    · rw [List.forall_mem_singleton, ← Value.fails_ofRaw_iff, hraw]
      exact not_fails_ok _
  have htext : yields (Render.song fireSong) (fun text =>
      (excessLines? .standard text.toList).isNone) = true := by decide +kernel
  refine ⟨fun text h => ?_, ?_, ?_, nofun, ?_⟩
  · rw [h] at htext
    exact Option.isNone_iff_eq_none.1 htext
  · rintro x ⟨⟩
    rfl
  · rintro n ⟨⟩
    decide +kernel
  · simp only [fireSong, List.forall_mem_singleton, List.forall_mem_cons]
    exact ⟨trivial, ⟨none, hlyric⟩, hcue⟩

/-- The text is accepted and its song survives, so the text that is written of it is accepted again
and has the same canonical form. -/
theorem reprocess_same_fireText :
    ∃ outcome content, Config.standard.IsKept ∧ Config.standard.catalogPath = none ∧
      process (fun path => .error (.missing path)) .standard none "song" fireText = .ok outcome ∧
      outcome.isOk = true ∧ outcome.content = some content ∧ content.song.Survives .standard ∧
      ∃ written outcome' content', Render.song content.song = .ok written ∧
        process (fun path => .error (.missing path)) .standard none "again" written.toList =
          .ok outcome' ∧ outcome'.isOk = true ∧ outcome'.content = some content' ∧
        content.ir.same content'.ir = true := by
  have hyields : yields (process (fun path => .error (.missing path)) .standard none "song" fireText)
      (fun outcome => outcome.isOk && decide (outcome.content.map (·.song) = some fireSong)) = true := by
    decide +kernel
  obtain ⟨outcome, houtcome, hok⟩ := exists_of_yields hyields
  rw [Bool.and_eq_true, decide_eq_true_eq] at hok
  obtain ⟨hok, hsong⟩ := hok
  obtain ⟨content, hcontent, hsame⟩ := reprocess_same (fun path => .error (.missing path))
    Config.isKept_standard rfl "song" "again" fireText outcome houtcome hok
  have hfire : content.song = fireSong := by
    rw [hcontent] at hsong
    exact Option.some.inj hsong
  have hsurvives : content.song.Survives .standard := hfire ▸ survives_fireSong
  exact ⟨outcome, content, Config.isKept_standard, rfl, houtcome, hok, hcontent, hsurvives,
    hsame hsurvives⟩

/-- A document with a lyric in brackets behind a performance direction. -/
def bracketedText : List Char := "[A]\n(soft) [B]\nla".toList

/-- A lyric in brackets is written as the start of a section, so an accepted document need not have
the same canonical form once its song is written and processed again. -/
theorem not_same_bracketedText :
    ∃ outcome content written outcome' content',
      process (fun path => .error (.missing path)) .standard none "song" bracketedText =
        .ok outcome ∧ outcome.isOk = true ∧ outcome.content = some content ∧
      Render.song content.song = .ok written ∧
      process (fun path => .error (.missing path)) .standard none "song" written.toList =
        .ok outcome' ∧ outcome'.isOk = true ∧ outcome'.content = some content' ∧
      content.ir.same content'.ir = false := by
  have hyields : yields
      (process (fun path => .error (.missing path)) .standard none "song" bracketedText)
      (fun outcome => outcome.isOk && outcome.content.any fun content =>
        yields (Render.song content.song) fun written =>
          yields (process (fun path => .error (.missing path)) .standard none "song" written.toList)
            fun outcome' => outcome'.isOk && outcome'.content.any fun content' =>
              !content.ir.same content'.ir) = true := by
    decide +kernel
  obtain ⟨outcome, houtcome, h⟩ := exists_of_yields hyields
  obtain ⟨hok, h⟩ := Bool.and_eq_true_iff.1 h
  obtain ⟨content, hcontent, h⟩ := (Option.any_eq_true _ _).1 h
  obtain ⟨written, hwritten, h⟩ := exists_of_yields h
  obtain ⟨outcome', houtcome', h⟩ := exists_of_yields h
  obtain ⟨hok', h⟩ := Bool.and_eq_true_iff.1 h
  obtain ⟨content', hcontent', h⟩ := (Option.any_eq_true _ _).1 h
  exact ⟨outcome, content, written, outcome', content', houtcome, hok, hcontent, hwritten, houtcome',
    hok', hcontent', by simpa using h⟩

end CueSheet
