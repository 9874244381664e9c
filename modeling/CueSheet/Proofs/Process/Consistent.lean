import CueSheet.Proofs.Document.Places
import CueSheet.Proofs.Process.Schedule
import CueSheet.Proofs.Tempo.Normal
import CueSheet.Proofs.Text.Lines

/-!
# What comes of a document fits together

Processing a document has four ways to end: the document has too many lines, a diagnostic is fatal,
the tempo map cannot be built, or there is content. On each of them the outcome is consistent
(`isConsistent_of_process`): there is content exactly if no diagnostic is fatal, the parts of the
content belong to one song, and every diagnostic names the document and one of its lines. The third
way is never taken. The tempo of a song that is read is always in order, so the validator has checked
its segments and reported a conflict between them as fatal (`not_conflict_of_validate`).
-/

namespace CueSheet

/-- An outcome fits together, and fits to its document. -/
structure Outcome.IsConsistent (source : String) (text : List Char) (outcome : Outcome) : Prop where
  /-- It carries the name of the document. -/
  source : outcome.source = source
  /-- There is content unless a diagnostic is fatal. -/
  content : outcome.content = none ↔ outcome.diagnostics.any Diagnostic.isFatal = true
  /-- The canonical form is that of the song. -/
  ir : ∀ content ∈ outcome.content, content.song.toIr = .ok content.ir
  /-- The tempo map has the segments of the canonical form. -/
  segments : ∀ content ∈ outcome.content, content.ir.get "tempoMap" =
    .list (content.tempoMap.segments.map fun segment => segment.values.toIr)
  /-- The segments of the tempo map are accepted. -/
  checked : ∀ content ∈ outcome.content,
    checkSegments .binary64 (content.tempoMap.segments.map Segment.values) =
      .ok content.tempoMap.segments
  /-- The diagnostics carry the name of the document. -/
  sources : ∀ d ∈ outcome.diagnostics, d.source = some outcome.source
  /-- The diagnostics stand on lines of the document, or on the first one if it has none. -/
  lines : AreOn (fun line => 1 ≤ line ∧ line ≤ max 1 (Text.lines text).length) outcome.diagnostics

variable {config : Config} {names : Option Namespace} {song : Song} {source : String}
  {text : List Char} {outcome : Outcome}

/-! ## Conflicts between segments -/

/-- The tempo of a song that is read is in order. -/
theorem Document.isTempo_of_read {document : Document}
    (h : Document.read .binary64 config text = .ok document) :
    Validation.isTempo document.song.bpm = true := by
  obtain ⟨settings, resolved, hresolve, hsong⟩ := Document.settings_of_read h
  rw [hsong]
  exact Settings.isTempo_of_resolve hresolve

/-- A conflict between the segments of a song whose tempo is in order is reported as fatal. -/
theorem not_conflict_of_validate {ρ : Rounding} (hbpm : Validation.isTempo song.bpm = true)
    {problems : List Diagnostic} (h : validate ρ config names song = .ok problems)
    (hfatal : problems.any Diagnostic.isFatal = false) (why : Conflict) (start : Option Value) :
    TempoMap.ofSong ρ song ≠ .error (.conflict why start) := by
  intro hconflict
  have hchecked := TempoMap.ofSong_eq_error_iff.1 hconflict
  obtain ⟨whole, -, h⟩ := bind_eq_ok.1 h
  obtain ⟨tempo, htempo, h⟩ := bind_eq_ok.1 h
  obtain ⟨founds, -, h⟩ := bind_eq_ok.1 h
  obtain rfl := pure_eq_ok_iff.1 h
  -- The tempo is in order, so the validator has checked the same segments.
  have hreported : tempo = [.tempoMap why] := by
    rw [Validation.tempoProblems, hbpm, Bool.not_true, if_neg Bool.false_ne_true, hchecked] at htempo
    exact (pure_eq_ok_iff.1 htempo).symm
  rw [hreported] at hfatal
  simp [Diagnostic.isFatal, Diagnostic.onLine, Problem.severity] at hfatal

/-! ## Lines -/

/-- The diagnostics of a song stand on the first line and on the lines of its cues. -/
theorem areOn_validate {ρ : Rounding} {P : ℤ → Prop} (hfirst : P 1)
    (hitems : ∀ part ∈ song.sections, ∀ item ∈ part.items, item.IsOn P)
    {problems : List Diagnostic} (h : validate ρ config names song = .ok problems) :
    AreOn P problems := by
  obtain ⟨whole, -, h⟩ := bind_eq_ok.1 h
  obtain ⟨tempo, -, h⟩ := bind_eq_ok.1 h
  obtain ⟨founds, hfounds, h⟩ := bind_eq_ok.1 h
  obtain rfl := pure_eq_ok_iff.1 h
  refine List.forall_mem_append.2
    ⟨List.forall_mem_map.2 fun _ _ => ⟨1, rfl, hfirst⟩, fun d hd => ?_⟩
  obtain ⟨found, hfound, hd⟩ := List.mem_flatten.1 hd
  obtain ⟨item, hitem, hchecked⟩ := exists_of_mem_right (mapM_eq_ok_iff.1 hfounds) hfound
  obtain ⟨part, hpart, hitem⟩ := List.mem_flatMap.1 hitem
  cases item with
  | performance | lyric | raw =>
    obtain rfl := pure_eq_ok_iff.1 hchecked
    cases hd
  | cue cue line =>
    obtain ⟨found, -, hchecked⟩ := bind_eq_ok.1 hchecked
    obtain rfl := pure_eq_ok_iff.1 hchecked
    obtain ⟨problem, -, rfl⟩ := List.mem_map.1 hd
    exact ⟨line, rfl, hitems part hpart _ hitem⟩

/-- What is reported on a document when it is read and validated stands on one of its lines, or on the
first one if it has none. -/
theorem areOn_document {document : Document} {problems : List Diagnostic}
    (hread : Document.read .binary64 config text = .ok document)
    (hvalidate : validate .binary64 config names document.song = .ok problems) :
    AreOn (fun line => 1 ≤ line ∧ line ≤ max 1 (Text.lines text).length)
      (document.diagnostics ++ problems) := by
  obtain ⟨hitems, hreports⟩ := Document.isOn_read hread
  have hlength : (Document.linesOf text).length ≤ (Text.lines text).length := by
    rw [Document.linesOf, List.length_map]
    exact Text.length_lines_dropMarks_le text
  -- Byte order marks alone are a line of the text, but none of the document.
  have hline (line : ℤ) (h : 1 ≤ line ∧ line ≤ (Document.linesOf text).length) :
      1 ≤ line ∧ line ≤ max 1 (Text.lines text).length := by
    omega
  have hvalidated := areOn_validate (by omega)
    (fun part hpart item hitem => (hitems part hpart item hitem).imp hline) hvalidate
  exact List.forall_mem_append.2 ⟨hreports.areOn.imp hline, hvalidated⟩

/-! ## Outcomes -/

/-- The canonical form of a song holds its segments in effect as its tempo map. -/
theorem Song.get_tempoMap_of_toIr {ir : Value} (h : song.toIr = .ok ir) :
    ir.get "tempoMap" = .list (song.segments.map Segment.toIr) := by
  obtain ⟨parts, -, h⟩ := bind_eq_ok.1 h
  obtain rfl := pure_eq_ok_iff.1 h
  rfl

/-- An outcome without content is consistent if one of its diagnostics is fatal. -/
theorem isConsistent_stamp_none {diagnostics : List Diagnostic}
    (hfatal : diagnostics.any Diagnostic.isFatal = true)
    (hlines : AreOn (fun line => 1 ≤ line ∧ line ≤ max 1 (Text.lines text).length) diagnostics) :
    (Outcome.stamp config source diagnostics none).IsConsistent source text where
  source := rfl
  content := iff_of_true rfl (by rwa [Outcome.stamp, List.any_map])
  ir := nofun
  segments := nofun
  checked := nofun
  sources := List.forall_mem_map.2 fun _ _ => rfl
  lines := List.forall_mem_map.2 hlines

/-- An outcome with the content of a song is consistent if none of its diagnostics is fatal. -/
theorem isConsistent_stamp_some {diagnostics : List Diagnostic} {ir : Value} {map : TempoMap}
    (hir : song.toIr = .ok ir) (hmap : TempoMap.ofSong .binary64 song = .ok map)
    (hfatal : diagnostics.any Diagnostic.isFatal = false)
    (hlines : AreOn (fun line => 1 ≤ line ∧ line ≤ max 1 (Text.lines text).length) diagnostics) :
    (Outcome.stamp config source diagnostics (some ⟨song, ir, map⟩)).IsConsistent source text := by
  obtain ⟨segments, hsegments, hvalid, rfl⟩ := TempoMap.ofSegments_eq_ok_iff.1 hmap
  have hchecked : checkSegments .binary64 song.segments = .ok segments :=
    (TempoMap.checkSegments_eq_ok_iff song.segments_ne_nil).2 ⟨hsegments, hvalid⟩
  have hcontent : (Outcome.stamp config source diagnostics
      (some ⟨song, ir, .fresh segments⟩)).diagnostics.any Diagnostic.isFatal = false := by
    rwa [Outcome.stamp, List.any_map]
  refine ⟨rfl, iff_of_false nofun (by rw [hcontent]; exact Bool.false_ne_true), ?_, ?_, ?_,
    List.forall_mem_map.2 fun _ _ => rfl, List.forall_mem_map.2 hlines⟩
  · rintro content ⟨⟩
    exact hir
  · rintro content ⟨⟩
    show ir.get "tempoMap" = .list (segments.map fun segment => segment.values.toIr)
    rw [Song.get_tempoMap_of_toIr hir, hsegments, List.map_map]
    rfl
  · rintro content ⟨⟩
    show checkSegments .binary64 (segments.map Segment.values) = .ok segments
    rw [← hsegments]
    exact hchecked

/-- The outcome of a document that is read is consistent. -/
theorem isConsistent_of_processLines
    (h : processLines config names source text = .ok outcome) : outcome.IsConsistent source text := by
  obtain ⟨document, hread, h⟩ := bind_eq_ok.1 h
  obtain ⟨problems, hvalidate, h⟩ := bind_eq_ok.1 h
  have hlines := areOn_document hread hvalidate
  dsimp only at h
  split_ifs at h with hfatal
  · obtain rfl := pure_eq_ok_iff.1 h
    exact isConsistent_stamp_none hfatal hlines
  have hfatal := Bool.eq_false_of_not_eq_true hfatal
  split at h
  · -- The validator has found no conflict, so the tempo map has none.
    next why start hconflict =>
    have hproblems : problems.any Diagnostic.isFatal = false := by
      rw [List.any_append, Bool.or_eq_false_iff] at hfatal
      exact hfatal.2
    exact absurd hconflict
      (not_conflict_of_validate (Document.isTempo_of_read hread) hvalidate hproblems why start)
  · cases h
  · next map hmap =>
    obtain ⟨ir, hir, h⟩ := bind_eq_ok.1 h
    obtain rfl := pure_eq_ok_iff.1 h
    exact isConsistent_stamp_some hir hmap hfatal hlines

/-- A document has more lines than are accepted if it is said to. -/
theorem of_excessLines? {count limit : ℕ} (h : excessLines? config text = some (count, limit)) :
    limit < count ∧ count = (Text.lines text).length := by
  unfold excessLines? at h
  dsimp only at h
  split at h
  · split_ifs at h with hexcess
    obtain ⟨rfl, rfl⟩ := Prod.mk.inj (Option.some.inj h)
    exact ⟨hexcess, rfl⟩
  · cases h

/-- The outcome of processing a document with a given namespace of known cues is consistent. -/
theorem isConsistent_of_processWith
    (h : processWith config names source text = .ok outcome) : outcome.IsConsistent source text := by
  unfold processWith at h
  split at h
  · next count limit hexcess =>
    obtain ⟨shown, -, h⟩ := bind_eq_ok.1 h
    obtain rfl := pure_eq_ok_iff.1 h
    obtain ⟨hlt, hcount⟩ := of_excessLines? hexcess
    exact isConsistent_stamp_none rfl
      (List.forall_mem_singleton.2 ⟨limit + 1, rfl, by omega, by omega⟩)
  · exact isConsistent_of_processLines h

/-- The outcome of processing a document is consistent. That its tempo map cannot be built although
nothing fatal has been reported never happens, whatever cues are known. -/
theorem isConsistent_of_process (files : Files) (config : Config) (names : Option Namespace)
    (source : String) (text : List Char) (outcome : Outcome)
    (h : process files config names source text = .ok outcome) :
    outcome.IsConsistent source text ∧
      ∀ (known : Option Namespace) (document : Document) (problems : List Diagnostic),
        Document.read .binary64 config text = .ok document →
          validate .binary64 config known document.song = .ok problems →
          (document.diagnostics ++ problems).any Diagnostic.isFatal = false →
          ∀ why start, TempoMap.ofSong .binary64 document.song ≠ .error (.conflict why start) := by
  obtain ⟨names', hprocess⟩ := exists_processWith h
  refine ⟨isConsistent_of_processWith hprocess,
    fun known document problems hread hvalidate hfatal => ?_⟩
  rw [List.any_append, Bool.or_eq_false_iff] at hfatal
  exact not_conflict_of_validate (Document.isTempo_of_read hread) hvalidate hfatal.2

/-- A document with a tempo change and a cue that is out of range. -/
def loudText : List Char :=
  "@BPM 90\n@TempoMap 0:90, 8:120.5\n\n[A]\n(soft) la\n<bells volume=2>\n".toList

/-- The document is refused although there is content, and what comes of it fits together. -/
theorem isConsistent_of_process_loudText :
    ∃ outcome, process (fun path => .error (.missing path)) .standard none "song" loudText =
        .ok outcome ∧ outcome.content.isSome = true ∧ outcome.isOk = false ∧
      outcome.IsConsistent "song" loudText := by
  have hyields : yields (process (fun path => .error (.missing path)) .standard none "song" loudText)
      (fun outcome => outcome.content.isSome && !outcome.isOk) = true := by
    decide +kernel
  obtain ⟨outcome, h, hcheck⟩ := exists_of_yields hyields
  rw [Bool.and_eq_true, Bool.not_eq_true'] at hcheck
  exact ⟨outcome, h, hcheck.1, hcheck.2, (isConsistent_of_process _ _ _ _ _ _ h).1⟩

end CueSheet
