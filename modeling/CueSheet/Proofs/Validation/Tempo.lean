import CueSheet.Proofs.Validation.Fields
import CueSheet.Proofs.Validation.Song

/-!
# The check of tempos is exact and shared

A tempo map is built only from segments that pass the check of segments, and the validator makes the
same check of the segments in effect for a song. So the one refuses a song because of a conflict
exactly if the other reports a fatal one, and both tell the same reason
(`Validation.exists_conflict_iff`). Nothing else that is reported is a conflict between segments.

`checksTempos` says this together with what the check passes, where it stops, and which segments are
in effect for a song.
-/

namespace CueSheet

variable {ρ : Rounding} {config : Config} {names : Option Namespace} {song : Song}
  {diagnostics : List Diagnostic}

/-! ## The segments in effect -/

/-- A segment at beat zero is in effect for every song. -/
theorem Song.exists_isZero_segments (song : Song) :
    ∃ segment ∈ song.segments, segment.start.isZero = true := by
  unfold Song.segments
  split_ifs with hstart
  · exact List.any_eq_true.1 hstart
  · exact ⟨⟨.int 0, song.bpm⟩, List.mem_cons_self, rfl⟩

/-- The declared tempo changes are in effect, in the order in which they are declared. -/
theorem Song.tempoChanges_isSuffix_segments (song : Song) : song.tempoChanges <:+ song.segments := by
  unfold Song.segments
  split_ifs
  · exact List.suffix_refl _
  · exact List.suffix_cons _ _

namespace Validation

/-! ## Conflicts in diagnostics -/

/-- The check of a cue tells of no conflict between segments. -/
theorem tells_category_cueProblems {limit : ℕ} {cue : Cue} :
    Tells (·.category ≠ .tempoMapConflict) (cueProblems limit names cue) := by
  intro problems h problem hproblem
  obtain ⟨repeats, units, pan, others, hrepeats, hunits, hpan, hothers, rfl⟩ := cueProblems_eq_ok h
  simp only [List.mem_append] at hproblem
  obtain (((hname | hrepeat) | hunit) | hpanMem) | hother := hproblem
  · exact forall_mem_nameProblems (P := (·.category ≠ .tempoMapConflict)) nofun (fun _ => nofun)
      (fun _ => nofun) problem hname
  · exact tells_problemsAt (P := (·.category ≠ .tempoMapConflict)) (fun _ =>
      tells_repeatProblems (fun _ => nofun) (fun _ => nofun) fun _ => nofun) _ hrepeats problem hrepeat
  · obtain ⟨unit, -, found, hfound, hmem⟩ := (mem_gather_iff hunits).1 hunit
    exact tells_problemsAt (P := (·.category ≠ .tempoMapConflict)) (fun _ =>
      tells_unitProblems (fun _ => nofun) fun _ => nofun) _ hfound problem hmem
  · exact tells_problemsAt (P := (·.category ≠ .tempoMapConflict)) (fun _ =>
      tells_panProblems (fun _ => nofun) fun _ => nofun) _ hpan problem hpanMem
  · obtain ⟨param, -, found, hfound, hmem⟩ := (mem_gather_iff hothers).1 hother
    exact tells_parameterProblems (P := (·.category ≠ .tempoMapConflict)) (fun _ => nofun)
      (fun _ => nofun) (fun _ => nofun) nofun nofun _ hfound problem hmem

/-- The check of the tempo map of a song with a tempo finds the conflict between its segments. -/
theorem mem_tempoProblems_iff (hbpm : isTempo song.bpm = true) {tempo : List Problem}
    (h : tempoProblems ρ song = .ok tempo) {problem : Problem} :
    problem ∈ tempo ↔ ∃ why start, TempoMap.ofSong ρ song = .error (.conflict why start) ∧
      problem = .tempoMap why := by
  simp only [TempoMap.ofSong_eq_error_iff]
  rw [tempoProblems, hbpm, Bool.not_true, if_neg Bool.false_ne_true] at h
  split at h
  · next hchecked =>
    obtain rfl := pure_eq_ok_iff.1 h
    simp [hchecked]
  · next why start hchecked =>
    obtain rfl := pure_eq_ok_iff.1 h
    simp [hchecked]
  · cases h

/-- The validator reports a fatal conflict exactly if the tempo map cannot be built because of one, and
for the same reason. -/
theorem exists_conflict_iff (hbpm : isTempo song.bpm = true)
    (h : validate ρ config names song = .ok diagnostics) (reason : String) :
    (∃ why start, TempoMap.ofSong ρ song = .error (.conflict why start) ∧ why.reason = reason) ↔
      ∃ diagnostic ∈ diagnostics, diagnostic.isFatal = true ∧
        diagnostic.problem.category = .tempoMapConflict ∧ diagnostic.problem.message = reason := by
  obtain ⟨whole, tempo, hwhole, htempo, hmem⟩ := mem_validate_iff h
  constructor
  · rintro ⟨why, start, hconflict, rfl⟩
    have hproblem := (mem_tempoProblems_iff hbpm htempo).2 ⟨why, start, hconflict, rfl⟩
    refine ⟨.onLine 1 (.tempoMap why), (hmem _).2 (.inl ?_), rfl, rfl, rfl⟩
    exact List.mem_map_of_mem (List.mem_append_right _ hproblem)
  · rintro ⟨diagnostic, hdiagnostic, -, hcategory, rfl⟩
    rcases (hmem diagnostic).1 hdiagnostic with hsong | ⟨item, hitem, found, hfound, hin⟩
    · obtain ⟨problem, hproblem, rfl⟩ := List.mem_map.1 hsong
      rcases List.mem_append.1 hproblem with hproblem | hproblem
      · exact absurd hcategory (tells_songProblems (P := (·.category ≠ .tempoMapConflict)) nofun
          (fun _ => nofun) (fun _ => nofun) whole hwhole problem hproblem)
      · obtain ⟨why, start, hconflict, rfl⟩ := (mem_tempoProblems_iff hbpm htempo).1 hproblem
        exact ⟨why, start, hconflict, rfl⟩
    -- Of the items only cues are checked, and what is told of them is no conflict.
    · cases item with
      | performance | lyric | raw =>
        obtain rfl := pure_eq_ok_iff.1 hfound
        cases hin
      | cue cue line =>
        obtain ⟨problems, hproblems, hfound⟩ := bind_eq_ok.1 hfound
        obtain rfl := pure_eq_ok_iff.1 hfound
        obtain ⟨problem, hproblem, rfl⟩ := List.mem_map.1 hin
        exact absurd hcategory (tells_category_cueProblems problems hproblems problem hproblem)

end Validation

/-! ## The check as a whole -/

/-- The check of tempos is exact and shared. It passes the segments without a fault, and stops at the
first segment at fault. The validator of a song reports a conflict between segments exactly if the
tempo map of the song cannot be built because of it, and it never fails because of one. In effect for
a song are its tempo changes in order, and a segment at beat zero. -/
theorem checksTempos :
    (∀ segments : List (Segment Number), (∀ segment ∈ segments, segment.IsKept) →
      (¬Fails (checkSegments .binary64 (segments.map Segment.values)) ↔
        TempoMap.Faultless segments) ∧
      ∀ fault, checkSegments .binary64 (segments.map Segment.values) = .error fault →
        ∃ front segment back why, segments = front ++ segment :: back ∧
          fault = .conflict why (some segment.start) ∧ TempoMap.Faultless front ∧
          ¬TempoMap.Faultless (front ++ [segment])) ∧
    (∀ song : Song, song.HasKeptTempos → ∀ config names,
      (Fails (validate .binary64 config names song) ↔
        Fails (Validation.songProblems song) ∨ ∃ item ∈ song.sections.flatMap (·.items),
          Fails (Validation.itemDiagnostics config names item)) ∧
      ∀ diagnostics, validate .binary64 config names song = .ok diagnostics → ∀ reason,
        (∃ why start, TempoMap.ofSong .binary64 song = .error (.conflict why start) ∧
          why.reason = reason) ↔
        ∃ diagnostic ∈ diagnostics, diagnostic.isFatal = true ∧
          diagnostic.problem.category = .tempoMapConflict ∧ diagnostic.problem.message = reason) ∧
    ∀ song : Song, (∃ segment ∈ song.segments, segment.start.isZero = true) ∧
      song.tempoChanges <:+ song.segments := by
  refine ⟨fun segments hkept => ⟨TempoMap.not_fails_checkSegments_iff hkept, fun fault =>
    TempoMap.exists_of_checkSegments_eq_error hkept⟩, fun song hsong config names =>
      ⟨fails_validate_iff config names hsong, fun diagnostics h reason => ?_⟩,
    fun song => ⟨song.exists_isZero_segments, song.tempoChanges_isSuffix_segments⟩⟩
  obtain ⟨bpm, hbpm, htempo, -⟩ := hsong.bpm
  refine Validation.exists_conflict_iff ?_ h reason
  rw [hbpm]
  exact htempo

/-- The third segment is out of order, and the fourth one has neither a start nor a tempo. The map
and the validation both name the third one alone. -/
theorem checksTempos_backward :
    let segments : List (Segment Number) :=
      [⟨.int 0, .int 120⟩, ⟨.int 8, .int 60⟩, ⟨.int 4, .int 100⟩, ⟨.real .nan, .int 0⟩]
    let song : Song := { bellSong with tempoChanges := segments.map Segment.values }
    (∀ segment ∈ segments, segment.IsKept) ∧ ¬TempoMap.Faultless segments ∧ song.HasKeptTempos ∧
      TempoMap.ofSong .binary64 song = .error (.conflict (.order "4") (some (.int 4))) ∧
      ∃ diagnostics, validate .binary64 Config.standard none song = .ok diagnostics ∧
        ∃ diagnostic ∈ diagnostics, diagnostic.isFatal = true ∧
          diagnostic.problem.category = .tempoMapConflict ∧
          diagnostic.problem.message = "segment at beat 4 is out of order" := by
  intro segments song
  have hsmall (n : ℕ) (hn : n ≤ 120) : (Number.int n).IsKept := by
    have hlimit : (120 : ℚ) < overflowAt := by decide +kernel
    have hn : (n : ℚ) ≤ 120 := by exact_mod_cast hn
    simpa [Number.IsKept] using hn.trans_lt hlimit
  have hkept : ∀ segment ∈ segments, segment.IsKept := by
    simp only [segments, List.forall_mem_cons]
    exact ⟨⟨hsmall 0 (by decide), hsmall 120 (by decide)⟩, ⟨hsmall 8 (by decide), hsmall 60 (by decide)⟩,
      ⟨hsmall 4 (by decide), hsmall 100 (by decide)⟩, ⟨trivial, hsmall 0 (by decide)⟩, nofun⟩
  have hsong : song.HasKeptTempos := by
    exact ⟨⟨.int 120, rfl, by decide +kernel, hsmall 120 (by decide)⟩,
      List.forall_mem_map.2 fun segment hsegment => ⟨segment, rfl, hkept segment hsegment⟩⟩
  obtain ⟨hcheck, hvalidate, -⟩ := checksTempos
  have hfails : checkSegments .binary64 (segments.map Segment.values) =
      .error (.conflict (.order "4") (some (.int 4))) := by decide +kernel
  have hconflict : TempoMap.ofSong .binary64 song =
      .error (.conflict (.order "4") (some (.int 4))) := by decide +kernel
  have hyields : yields (validate .binary64 Config.standard none song) (fun _ => true) = true := by
    decide +kernel
  obtain ⟨diagnostics, hdiagnostics, -⟩ := exists_of_yields hyields
  refine ⟨hkept, fun h => (hcheck segments hkept).1.2 h ⟨_, hfails⟩, hsong, hconflict, diagnostics,
    hdiagnostics, ?_⟩
  exact ((hvalidate song hsong Config.standard none).2 diagnostics hdiagnostics _).1
    ⟨_, _, hconflict, rfl⟩

end CueSheet
