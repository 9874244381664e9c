import CueSheet.Proofs.Process.Stumble
import CueSheet.Proofs.Timeline.Schedule

/-!
# Which accepted documents can be scheduled

A document that is accepted is meant to have events, each at a finite beat and a finite time of at
least zero. `events_iff_schedulable` says which accepted documents have them: exactly those whose song
can be scheduled (`Song.Schedulable`). The others hold amounts near the end of the real numbers, since
the checks of a song look at one amount at a time, and at whole numbers of any size.
-/

namespace CueSheet

variable {config : Config} {source : String} {text : List Char} {outcome : Outcome}

/-- A document of which there is content has no more lines than are accepted; its song is read from
it, and has a canonical form and a tempo map. -/
structure HasContent (config : Config) (names : Option Namespace) (source : String)
    (text : List Char) (outcome : Outcome) (content : Content) : Prop where
  /-- The document has no more lines than are accepted. -/
  lines : excessLines? config text = none
  /-- The song is read from the document, and is reported on. -/
  read : ∃ document problems, Document.read .binary64 config text = .ok document ∧
    document.song = content.song ∧ validate .binary64 config names content.song = .ok problems ∧
    (document.diagnostics ++ problems).any Diagnostic.isFatal = false ∧
    outcome = .stamp config source (document.diagnostics ++ problems) (some content)
  /-- The song has a canonical form. -/
  ir : content.song.toIr = .ok content.ir
  /-- The song has a tempo map. -/
  tempoMap : TempoMap.ofSong .binary64 content.song = .ok content.tempoMap

/-- Where the content of an outcome comes from. -/
theorem hasContent_of_processWith {names : Option Namespace} {content : Content}
    (h : processWith config names source text = .ok outcome)
    (hcontent : outcome.content = some content) :
    HasContent config names source text outcome content := by
  unfold processWith at h
  split at h
  · -- Too many lines, problems that are fatal and tempos in conflict leave no content.
    obtain ⟨shown, -, h⟩ := bind_eq_ok.1 h
    obtain rfl := pure_eq_ok_iff.1 h
    cases hcontent
  · next hlines =>
    obtain ⟨document, hdocument, h⟩ := bind_eq_ok.1 h
    obtain ⟨problems, hproblems, h⟩ := bind_eq_ok.1 h
    dsimp only at h
    split_ifs at h with hfatal
    · obtain rfl := pure_eq_ok_iff.1 h
      cases hcontent
    split at h
    · obtain rfl := pure_eq_ok_iff.1 h
      cases hcontent
    · cases h
    · next tempoMap hmap =>
      obtain ⟨ir, hir, h⟩ := bind_eq_ok.1 h
      obtain rfl := pure_eq_ok_iff.1 h
      obtain rfl := Option.some.inj hcontent
      exact ⟨hlines, ⟨document, problems, hdocument, rfl, hproblems,
        Bool.eq_false_of_not_eq_true hfatal, rfl⟩, hir, hmap⟩

/-- Processing a document is processing it with some namespace of known cues, or with none. -/
theorem exists_processWith {files : Files} {names : Option Namespace}
    (h : process files config names source text = .ok outcome) :
    ∃ names', processWith config names' source text = .ok outcome := by
  cases names with
  | some names => exact ⟨some names, h⟩
  | none =>
    obtain ⟨names, -, h⟩ := bind_eq_ok.1 h
    exact ⟨names, h⟩

/-- The content of an outcome is ready to be scheduled: its items can stand in a document, and its
tempo map has its segments in order. -/
theorem ready_of_process {files : Files} (hconfig : config.IsKept) {names : Option Namespace}
    (h : process files config names source text = .ok outcome) {content : Content}
    (hcontent : outcome.content = some content) :
    outcome.maxRepeat = config.maxRepeat.val ∧
      (∀ part ∈ content.song.sections, ∀ item ∈ part.items, item.IsPlain) ∧
      TempoMap.IsOf .binary64 content.tempoMap.segments content.tempoMap ∧
      InOrder content.tempoMap.segments := by
  obtain ⟨names', h⟩ := exists_processWith h
  have hhas := hasContent_of_processWith h hcontent
  obtain ⟨document, problems, hread, hsong, -, -, hstamp⟩ := hhas.read
  have hsound := Document.isSound_of_read hconfig hread
  rw [hsong] at hsound
  obtain ⟨horder, hstarts, hoffsets⟩ := TempoMap.inOrder_of_ofSong hsound hhas.tempoMap
  refine ⟨by rw [hstamp]; rfl, hsound.items, ⟨rfl, hstarts, ?_⟩, horder⟩
  rw [hoffsets]
  nofun

/-- A document that is accepted has events with finite beats and times of at least zero exactly if
its song can be scheduled. -/
theorem events_iff_schedulable (files : Files) (hconfig : config.IsKept) (names : Option Namespace)
    (source : String) (text : List Char) (outcome : Outcome)
    (h : process files config names source text = .ok outcome) (hok : outcome.isOk = true) :
    ∃ content, outcome.content = some content ∧
      ((∃ events, outcome.events none = .ok events ∧ ∀ event ∈ events, event.IsTimed) ↔
        content.song.Schedulable config.maxRepeat.val content.tempoMap.segments) := by
  obtain ⟨content, hcontent⟩ := Option.isSome_iff_exists.1 (Bool.and_eq_true_iff.1 hok).1
  obtain ⟨hlimit, hplain, hmap, horder⟩ := ready_of_process hconfig h hcontent
  refine ⟨content, hcontent, ?_⟩
  rw [Outcome.events, hcontent, hlimit]
  exact Timeline.exists_schedule_iff hplain hmap horder

/-! ## Points in time -/

/-- The beats of the walk through a song, each with its time if it has one. -/
def Outcome.points (outcome : Outcome) : Option (List (Number × Option Number)) := do
  let content ← outcome.content
  let walk ← (Timeline.walk .binary64 outcome.maxRepeat content.song).toOption
  return walk.happenings.map fun happening =>
    (happening.1, (TempoMap.timeOf .binary64 content.tempoMap.segments happening.1).toOption)

/-- An outcome has events with finite beats and times exactly if all points of its walk are. -/
theorem events_iff_points {files : Files} (hconfig : config.IsKept) {names : Option Namespace}
    (h : process files config names source text = .ok outcome)
    {points : List (Number × Option Number)} (hpoints : outcome.points = some points) :
    (∃ events, outcome.events none = .ok events ∧ ∀ event ∈ events, event.IsTimed) ↔
      ∀ point ∈ points, point.1.IsTime ∧ ∃ seconds ∈ point.2, seconds.IsTime := by
  unfold Outcome.points at hpoints
  obtain ⟨content, hcontent, hpoints⟩ := Option.bind_eq_some_iff.1 hpoints
  obtain ⟨walk, hwalk, hpoints⟩ := Option.bind_eq_some_iff.1 hpoints
  obtain rfl := Option.some.inj hpoints
  obtain ⟨-, -, hmap, horder⟩ := ready_of_process hconfig h hcontent
  -- The points are those of a walk, so the walk does not fail.
  have hwalk : Timeline.walk .binary64 outcome.maxRepeat content.song = .ok walk := by
    cases hresult : Timeline.walk .binary64 outcome.maxRepeat content.song with
    | ok =>
      rw [hresult] at hwalk
      exact congrArg _ (Option.some.inj hwalk)
    | error =>
      rw [hresult] at hwalk
      cases hwalk
  rw [Outcome.events, hcontent]
  dsimp only
  rw [show (none : Option TempoMap).getD content.tempoMap = content.tempoMap from rfl,
    Timeline.exists_schedule_iff_of_walk hmap horder hwalk, List.forall_mem_map]
  refine forall₂_congr fun happening _ => and_congr_right' ?_
  cases TempoMap.timeOf .binary64 content.tempoMap.segments happening.1 <;>
    simp [Except.toOption]

/-- A document is accepted with given points in time. -/
theorem exists_points (text : List Char) (points : List (Number × Option Number))
    (h : yields (process (fun path => .error (.missing path)) .standard none "song" text)
      (fun outcome => outcome.isOk && decide (outcome.points = some points)) = true) :
    ∃ outcome, process (fun path => .error (.missing path)) .standard none "song" text =
        .ok outcome ∧ outcome.isOk = true ∧ outcome.points = some points := by
  obtain ⟨outcome, houtcome, h⟩ := exists_of_yields h
  obtain ⟨hok, h⟩ := Bool.and_eq_true_iff.1 h
  exact ⟨outcome, houtcome, hok, of_decide_eq_true h⟩

/-- A document whose only cue starts on a beat. -/
def startingCue : List Char := "<a start_beats=4>".toList

/-- The document is accepted and has events at finite times, so its song can be scheduled. -/
theorem events_iff_schedulable_startingCue :
    ∃ outcome content, Config.standard.IsKept ∧ process (fun path => .error (.missing path))
        .standard none "song" startingCue = .ok outcome ∧ outcome.isOk = true ∧
      outcome.content = some content ∧
      content.song.Schedulable Config.standard.maxRepeat.val content.tempoMap.segments := by
  obtain ⟨outcome, houtcome, hok, hpoints⟩ := exists_points startingCue
    [(.real (.finite 0), some (.real (.finite 0))),
      (.real (.finite 4), some (.real (.finite 2)))] (by decide +kernel)
  obtain ⟨content, hcontent, hiff⟩ := events_iff_schedulable (fun path => .error (.missing path))
    Config.isKept_standard none "song" startingCue outcome houtcome hok
  refine ⟨outcome, content, Config.isKept_standard, houtcome, hok, hcontent, hiff.1 ?_⟩
  rw [events_iff_points Config.isKept_standard houtcome hpoints]
  have htime : ∀ n : ℕ, (Number.real (.finite n)).IsTime := fun n => ⟨n, rfl, n.cast_nonneg⟩
  simp only [List.forall_mem_cons, List.not_mem_nil, false_imp_iff, implies_true, and_true,
    Option.mem_some_iff, exists_eq_left']
  exact ⟨⟨htime 0, htime 0⟩, htime 4, htime 2⟩

/-- A document whose only cue starts on a beat near the end of the real numbers. -/
def lateCue : List Char := "<a start_beats=".toList ++ List.replicate 308 '9' ++ ['>']

/-- An accepted document need not have events at finite times. -/
theorem not_isTimed_lateCue :
    ∃ outcome, process (fun path => .error (.missing path)) .standard none "song" lateCue =
        .ok outcome ∧ outcome.isOk = true ∧
      ¬∃ events, outcome.events none = .ok events ∧ ∀ event ∈ events, event.IsTimed := by
  obtain ⟨outcome, houtcome, hok, hpoints⟩ := exists_points lateCue
    [(.real (.finite 0), some (.real (.finite 0))),
      (.real (Rounding.binary64 (10 ^ 308)), some (.real (.infinite false)))] (by decide +kernel)
  refine ⟨outcome, houtcome, hok, ?_⟩
  rw [events_iff_points Config.isKept_standard houtcome hpoints]
  intro h
  obtain ⟨-, seconds, hseconds, q, hq, -⟩ := h _ (List.mem_cons_of_mem _ List.mem_cons_self)
  obtain rfl := Option.some.inj hseconds
  cases hq

end CueSheet
