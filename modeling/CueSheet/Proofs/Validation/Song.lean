import CueSheet.Proofs.Document.Errors
import CueSheet.Proofs.Tempo.Inverse
import CueSheet.Proofs.Tempo.Normal
import CueSheet.Proofs.Validation
import CueSheet.Proofs.Validation.Cue

/-!
# Which songs pass

A song is validated without an error exactly if each of its checks lets it pass
(`exists_validate_iff_passes`): it has sections, its tempo and its number of beats in a bar are in
order, its segments in effect make a tempo map, and its items pass. The segments are checked only if
the tempo is in order, but a song with another tempo is refused for that.

What passes is said without the checks by `Song.IsValid`. The one thing that the checks ask beyond it
is that whole numbers among the segments can be compared with real numbers, and there validation has
no result at all; so where it has one, it finds an error exactly if the song is not valid
(`areWarnings_iff_isValid`).
-/

namespace CueSheet

open Document (AreWarnings)

/-- The validator finds warnings at most in an item. -/
def Item.Passes (config : Config) (names : Option Namespace) (item : Item) : Prop :=
  ∃ diagnostics, Validation.itemDiagnostics config names item = .ok diagnostics ∧
    AreWarnings diagnostics

/-- The validator finds warnings at most in a song. -/
structure Song.Passes (config : Config) (names : Option Namespace) (song : Song) : Prop where
  /-- There are sections. -/
  ne_nil : song.sections ≠ []
  /-- The segments in effect make a tempo map. -/
  segments : ∃ segments : List (Segment Number), song.segments = segments.map Segment.values ∧
    TempoMap.IsValid .binary64 segments
  /-- The items pass. -/
  items : ∀ part ∈ song.sections, ∀ item ∈ part.items, item.Passes config names

variable {config : Config} {names : Option Namespace} {song : Song}

/-! ## The checks of a song -/

namespace Validation

/-- A problem of the song as a whole is reported with a warning exactly if it refuses nothing. -/
theorem areWarnings_onLine_iff {problems : List Problem} {line : ℤ} :
    AreWarnings (problems.map (Diagnostic.onLine line)) ↔
      ∀ problem ∈ problems, IsTolerated false problem := by
  simp [AreWarnings, IsTolerated, Diagnostic.isError, Diagnostic.onLine]

/-- A song passes as a whole exactly if it has sections, a tempo and a number of beats in a bar. -/
theorem letsPass_songProblems_iff :
    LetsPass false (songProblems song) ↔
      song.sections ≠ [] ∧ isTempo song.bpm = true ∧ isCount song.beatsPerBar = true := by
  have hempty : (∀ problem ∈ (if song.sections.isEmpty then [Problem.emptySong] else []),
      IsTolerated false problem) ↔ song.sections ≠ [] := by
    cases song.sections <;> simp [IsTolerated, Problem.severity]
  have hbpm : LetsPass false (if isTempo song.bpm then pure []
      else song.bpm.quoted >>= fun s => pure [Problem.bpm s]) ↔ isTempo song.bpm = true :=
    letsPass_guard_iff fun _ => rfl
  have hbeats : LetsPass false (if isCount song.beatsPerBar then pure []
      else song.beatsPerBar.quoted >>= fun s => pure [Problem.beatsPerBar s]) ↔
        isCount song.beatsPerBar = true :=
    letsPass_guard_iff fun _ => rfl
  rw [← hempty, ← hbpm, ← hbeats, songProblems_eq]
  constructor
  · rintro ⟨problems, h, htolerated⟩
    obtain ⟨bpm, hbpm, h⟩ := bind_eq_ok.1 h
    obtain ⟨beats, hbeats, h⟩ := bind_eq_ok.1 h
    obtain rfl := pure_eq_ok_iff.1 h
    simp only [List.forall_mem_append, and_assoc] at htolerated
    obtain ⟨hwhole, hbpm', hbeats'⟩ := htolerated
    exact ⟨hwhole, ⟨bpm, hbpm, hbpm'⟩, beats, hbeats, hbeats'⟩
  · rintro ⟨hwhole, ⟨bpm, hbpm, hbpm'⟩, beats, hbeats, hbeats'⟩
    rw [hbpm, ok_bind, hbeats, ok_bind]
    refine ⟨_, rfl, ?_⟩
    simp only [List.forall_mem_append, and_assoc]
    exact ⟨hwhole, hbpm', hbeats'⟩

/-- The tempo map of a song with a tempo passes exactly if the segments in effect make one. -/
theorem letsPass_tempoProblems_iff {ρ : Rounding} (h : isTempo song.bpm = true) :
    LetsPass false (tempoProblems ρ song) ↔
      ∃ segments : List (Segment Number), song.segments = segments.map Segment.values ∧
        TempoMap.IsValid ρ segments := by
  have hchecked (segments : List (Segment Number)) :
      checkSegments ρ song.segments = .ok segments ↔
        song.segments = segments.map Segment.values ∧ TempoMap.IsValid ρ segments :=
    TempoMap.checkSegments_eq_ok_iff song.segments_ne_nil
  simp only [← hchecked]
  unfold tempoProblems
  rw [h, Bool.not_true, if_neg Bool.false_ne_true]
  split
  · next segments hsegments => exact iff_of_true letsPass_pure_nil ⟨segments, hsegments⟩
  -- A conflict is reported as an error, so no error means that the segments were accepted.
  · next hconflict =>
    rw [hconflict, letsPass_pure_singleton_iff]
    exact iff_of_false (fun h => nomatch h.1) (by simp)
  · next hfault =>
    rw [hfault]
    exact iff_of_false (fun ⟨_, h, _⟩ => nomatch h) (by simp)

/-- A cue passes as an item exactly if the rules for cues let it pass. -/
theorem passes_cue_iff {cue : Cue} {line : ℤ} :
    (Item.cue cue line).Passes config names ↔
      LetsPass config.strict (cueProblems config.maxRepeat names cue) := by
  unfold Item.Passes LetsPass
  constructor
  · rintro ⟨diagnostics, h, hwarnings⟩
    obtain ⟨problems, hproblems, h⟩ := bind_eq_ok.1 h
    obtain rfl := pure_eq_ok_iff.1 h
    exact ⟨problems, hproblems, fun problem hproblem =>
      isError_check_iff.1 (hwarnings _ (List.mem_map_of_mem hproblem))⟩
  · rintro ⟨problems, hproblems, htolerated⟩
    refine ⟨problems.map (Diagnostic.check config.strict line), ?_, ?_⟩
    · rw [itemDiagnostics, hproblems]
      rfl
    · exact List.forall_mem_map.2 fun problem hproblem => isError_check_iff.2 (htolerated _ hproblem)

end Validation

open Validation (LetsPass)

/-- A song is validated without an error exactly if each of its checks lets it pass. -/
theorem exists_validate_iff {ρ : Rounding} :
    (∃ diagnostics, validate ρ config names song = .ok diagnostics ∧ AreWarnings diagnostics) ↔
      LetsPass false (Validation.songProblems song) ∧ LetsPass false (Validation.tempoProblems ρ song) ∧
        ∀ part ∈ song.sections, ∀ item ∈ part.items, item.Passes config names := by
  -- The items are checked one by one, in whatever sections they stand.
  have hitems : (∃ founds, (song.sections.flatMap (·.items)).mapM
        (Validation.itemDiagnostics config names) = .ok founds ∧ ∀ ds ∈ founds, AreWarnings ds) ↔
      ∀ part ∈ song.sections, ∀ item ∈ part.items, item.Passes config names := by
    rw [exists_mapM_iff]
    simp only [List.mem_flatMap, forall_exists_index, and_imp]
    exact ⟨fun h part hpart item hitem => h item part hpart hitem,
      fun h item part hpart hitem => h part hpart item hitem⟩
  rw [← hitems]
  unfold validate
  constructor
  · rintro ⟨diagnostics, h, hwarnings⟩
    obtain ⟨whole, hwhole, h⟩ := bind_eq_ok.1 h
    obtain ⟨tempo, htempo, h⟩ := bind_eq_ok.1 h
    obtain ⟨founds, hfounds, h⟩ := bind_eq_ok.1 h
    obtain rfl := pure_eq_ok_iff.1 h
    obtain ⟨hsong, hflatten⟩ := List.forall_mem_append.1 hwarnings
    obtain ⟨hwhole', htempo'⟩ :=
      List.forall_mem_append.1 (Validation.areWarnings_onLine_iff.1 hsong)
    exact ⟨⟨whole, hwhole, hwhole'⟩, ⟨tempo, htempo, htempo'⟩, founds, hfounds,
      fun ds hds d hd => hflatten d (List.mem_flatten.2 ⟨ds, hds, hd⟩)⟩
  · rintro ⟨⟨whole, hwhole, hwhole'⟩, ⟨tempo, htempo, htempo'⟩, founds, hfounds, hwarnings⟩
    rw [hwhole, ok_bind, htempo, ok_bind, hfounds, ok_bind]
    refine ⟨_, rfl, List.forall_mem_append.2 ⟨?_, fun d hd => ?_⟩⟩
    · exact Validation.areWarnings_onLine_iff.2 (List.forall_mem_append.2 ⟨hwhole', htempo'⟩)
    · obtain ⟨ds, hds, hd⟩ := List.mem_flatten.1 hd
      exact hwarnings ds hds d hd

/-- A song is validated without an error exactly if it has a tempo and a number of beats in a bar and
passes. -/
theorem exists_validate_iff_passes :
    (∃ diagnostics, validate .binary64 config names song = .ok diagnostics ∧
        AreWarnings diagnostics) ↔
      Validation.isTempo song.bpm = true ∧ Validation.isCount song.beatsPerBar = true ∧
        song.Passes config names := by
  rw [exists_validate_iff, Validation.letsPass_songProblems_iff]
  constructor
  · rintro ⟨⟨hne, hbpm, hbeats⟩, htempo, hitems⟩
    exact ⟨hbpm, hbeats, hne, (Validation.letsPass_tempoProblems_iff hbpm).1 htempo, hitems⟩
  · rintro ⟨hbpm, hbeats, hne, hsegments, hitems⟩
    exact ⟨⟨hne, hbpm, hbeats⟩, (Validation.letsPass_tempoProblems_iff hbpm).2 hsegments, hitems⟩

/-! ## Segments in order -/

/-- A computation gives a result, unless a whole number is too large for it. -/
def GivesUnlessLarge {α : Type} (x : Except Fault α) (a : α) : Prop :=
  x = .ok a ∨ x = .error .wholeTooLarge

/-- Two steps give the result of the second one on that of the first. -/
theorem GivesUnlessLarge.bind {α β : Type} {x : Except Fault α} {f : α → Except Fault β} {a : α}
    {b : β} (hx : GivesUnlessLarge x a) (hf : GivesUnlessLarge (f a) b) :
    GivesUnlessLarge (x >>= f) b := by
  rcases hx with rfl | rfl
  · exact hf
  · exact .inr rfl

/-- A number with a rational is finite. -/
theorem Number.givesUnlessLarge_checkFinite {x : Number} {q : ℚ} (h : x.toRat? = some q) :
    GivesUnlessLarge (x.checkFinite .binary64) true := by
  by_cases hlarge : Fails (x.toReal .binary64)
  · obtain ⟨fault, hfault⟩ := hlarge
    refine .inr ?_
    rw [checkFinite, hfault, eq_wholeTooLarge_of_toReal hfault]
    rfl
  · exact .inl (by rw [checkFinite_eq hlarge, isFinite_iff.2 ⟨q, h⟩])

section Climbs

variable {segment : Segment Number} {exact : Segment ℚ} {segments : List (Segment Number)}
  {exacts : List (Segment ℚ)}

/-- A tempo above zero is accepted. -/
theorem Segment.IsRational.givesUnlessLarge_checkTempo (h : segment.IsRational exact)
    (hpositive : 0 < exact.bpm) :
    GivesUnlessLarge (checkTempo .binary64 segment.values) segment.bpm := by
  have hsign : segment.bpm.isPositive = true := (Number.isPositive_iff h.bpm).2 hpositive
  unfold checkTempo
  rw [show segment.values.bpm.toNumber '>' = .ok segment.bpm from rfl, ok_bind, hsign]
  exact (Number.givesUnlessLarge_checkFinite h.bpm).bind (.inl rfl)

/-- A start with a rational is accepted. -/
theorem Segment.IsRational.givesUnlessLarge_checkStart (h : segment.IsRational exact) :
    GivesUnlessLarge (checkStart .binary64 segment.values.start) segment.start :=
  ((Number.givesUnlessLarge_checkFinite h.start).bind (b := some segment.start) (.inl rfl)).bind
    (.inl rfl)

/-- A segment in its place is accepted with the segments behind it. -/
theorem Segment.IsRational.givesUnlessLarge_checkFrom (h : segment.IsRational exact)
    (hpositive : 0 < exact.bpm) {previous : Option Number}
    (hplace : checkPlace previous segment.start = .ok ())
    (hrest : GivesUnlessLarge
      (checkFrom .binary64 (some segment.start) (segments.map Segment.values)) segments) :
    GivesUnlessLarge (checkFrom .binary64 previous ((segment :: segments).map Segment.values))
      (segment :: segments) := by
  have hplace : GivesUnlessLarge (checkPlace previous segment.start) () := .inl hplace
  exact (h.givesUnlessLarge_checkTempo hpositive).bind
    (h.givesUnlessLarge_checkStart.bind (hplace.bind (hrest.bind (.inl rfl))))

/-- Segments that climb from a start on are accepted behind it. -/
theorem givesUnlessLarge_checkFrom {previous : Number} {p : ℚ} (hp : previous.toRat? = some p)
    (hsegments : List.Forall₂ Segment.IsRational segments exacts) (hclimbs : Climbs exacts)
    (hbehind : ∀ exact ∈ exacts, p < exact.start) :
    GivesUnlessLarge (checkFrom .binary64 (some previous) (segments.map Segment.values))
      segments := by
  induction hsegments generalizing previous p with
  | nil => exact .inl rfl
  | @cons segment exact segments exacts hsegment _ ih =>
    have hlt : previous.lt segment.start = true :=
      (Number.lt_iff hp hsegment.start).2 (hbehind exact List.mem_cons_self)
    exact hsegment.givesUnlessLarge_checkFrom hclimbs.bpm_pos
      ((checkPlace_some_iff hp hsegment.start).2 hlt)
      (ih hsegment.start hclimbs.tail (List.pairwise_cons.1 hclimbs.increasing).1)

/-- Segments that climb from beat zero on are accepted. -/
theorem givesUnlessLarge_checkSegments
    (hsegments : List.Forall₂ Segment.IsRational segments (exact :: exacts))
    (hclimbs : Climbs (exact :: exacts)) (hzero : exact.start = 0) :
    GivesUnlessLarge (checkSegments .binary64 (segments.map Segment.values)) segments := by
  obtain ⟨segment, rest, hsegment, hrest, rfl⟩ := List.forall₂_cons_right_iff.1 hsegments
  have hfirst : segment.start.eq (.int 0) = true := by
    rw [Number.eq_iff hsegment.start (Number.toRat?_int 0), hzero, Int.cast_zero]
  exact hsegment.givesUnlessLarge_checkFrom hclimbs.bpm_pos (checkPlace_none_iff.2 hfirst)
    (givesUnlessLarge_checkFrom hsegment.start hrest hclimbs.tail
      (List.pairwise_cons.1 hclimbs.increasing).1)

end Climbs

/-! ## Valid songs -/

/-- A song is in order. -/
structure Song.IsValid (config : Config) (names : Option Namespace) (song : Song) : Prop where
  /-- There are sections. -/
  ne_nil : song.sections ≠ []
  /-- The tempo is a number above zero. -/
  bpm : ∃ q, song.bpm.IsRational q ∧ 0 < q
  /-- A bar has a whole number of beats, at least one. -/
  beatsPerBar : ∃ n : ℤ, song.beatsPerBar = .int n ∧ 1 ≤ n
  /-- The segments in effect climb from beat zero on, with tempos above zero. -/
  segments : ∃ (segments : List (Segment Number)) (first : Segment ℚ) (rest : List (Segment ℚ)),
    song.segments = segments.map Segment.values ∧
      List.Forall₂ Segment.IsRational segments (first :: rest) ∧ Climbs (first :: rest) ∧
      first.start = 0
  /-- The cues are in order. -/
  cues : ∀ part ∈ song.sections, ∀ cue line, .cue cue line ∈ part.items →
    cue.IsValid config.strict config.maxRepeat names

/-- The name and the keys of a cue are on one line, and no key stands twice. -/
structure Cue.IsFeedless (cue : Cue) : Prop where
  /-- The name is on one line. -/
  name : '\n' ∉ cue.name.toList
  /-- The keys are on one line. -/
  params : ∀ param ∈ cue.params, '\n' ∉ param.1.toList
  /-- The keys are different. -/
  keys : (cue.params.map (·.1)).Nodup

/-- A value is a tempo exactly if it is a number above zero. -/
theorem Validation.isTempo_iff {value : Value} :
    isTempo value = true ↔ ∃ q, value.IsRational q ∧ 0 < q := by
  cases value with
  | null | text | list | record => simp [isTempo, Value.number?, Value.IsRational]
  | number x => simp [isTempo, Value.number?, Value.IsRational, Number.isTempo_iff, and_assoc]

/-- A value counts beats exactly if it is a whole number of at least one. -/
theorem Validation.isCount_iff {value : Value} :
    isCount value = true ↔ ∃ n : ℤ, value = .int n ∧ 1 ≤ n := by
  cases value with
  | null | text | list | record => simp [isCount]
  | number x => cases x <;> simp [isCount]

/-- The items of a song pass exactly if its cues are in order. -/
theorem passes_iff_isValid (hcues : ∀ part ∈ song.sections, ∀ cue line,
      .cue cue line ∈ part.items → cue.IsFeedless) :
    (∀ part ∈ song.sections, ∀ item ∈ part.items, item.Passes config names) ↔
      ∀ part ∈ song.sections, ∀ cue line, .cue cue line ∈ part.items →
        cue.IsValid config.strict config.maxRepeat names := by
  have hcue (part : Section) (hpart : part ∈ song.sections) (cue : Cue) (line : ℤ)
      (hitem : .cue cue line ∈ part.items) :
      (Item.cue cue line).Passes config names ↔ cue.IsValid config.strict config.maxRepeat names := by
    obtain ⟨hname, hparams, hkeys⟩ := hcues part hpart cue line hitem
    rw [Validation.passes_cue_iff, Validation.letsPass_cueProblems_iff hname hparams hkeys]
  constructor
  · exact fun h part hpart cue line hitem =>
      (hcue part hpart cue line hitem).1 (h part hpart _ hitem)
  · intro h part hpart item hitem
    cases item with
    | performance | lyric | raw => exact ⟨[], rfl, Document.areWarnings_nil⟩
    | cue cue line => exact (hcue part hpart cue line hitem).2 (h part hpart cue line hitem)

/-- Where the validation of a song has a result, it finds no error exactly if the song is in order. -/
theorem areWarnings_iff_isValid (hcues : ∀ part ∈ song.sections, ∀ cue line,
      .cue cue line ∈ part.items → cue.IsFeedless) {diagnostics : List Diagnostic}
    (h : validate .binary64 config names song = .ok diagnostics) :
    AreWarnings diagnostics ↔ song.IsValid config names := by
  have hresult : AreWarnings diagnostics ↔ ∃ found,
      validate .binary64 config names song = .ok found ∧ AreWarnings found := by
    simp [h]
  rw [hresult, exists_validate_iff_passes, Validation.isTempo_iff, Validation.isCount_iff]
  constructor
  · rintro ⟨hbpm, hbeats, hne, ⟨segments, hsegments, hvalid⟩, hitems⟩
    obtain ⟨first, rest, hrational, hclimbs, hzero⟩ := hvalid.exists_isRational
    exact ⟨hne, hbpm, hbeats, ⟨segments, first, rest, hsegments, hrational, hclimbs, hzero⟩,
      (passes_iff_isValid hcues).1 hitems⟩
  · rintro ⟨hne, hbpm, hbeats, ⟨segments, first, rest, hsegments, hrational, hclimbs, hzero⟩, hvalid⟩
    refine ⟨hbpm, hbeats, hne, ⟨segments, ?_⟩, (passes_iff_isValid hcues).2 hvalid⟩
    rw [← TempoMap.checkSegments_eq_ok_iff song.segments_ne_nil, hsegments]
    -- Had a whole number been too large, the validation would have no result.
    refine (givesUnlessLarge_checkSegments hrational hclimbs hzero).resolve_right fun hlarge => ?_
    obtain ⟨_, -, h⟩ := bind_eq_ok.1 h
    obtain ⟨_, htempo, -⟩ := bind_eq_ok.1 h
    rw [Validation.tempoProblems, Validation.isTempo_iff.2 hbpm, Bool.not_true,
      if_neg Bool.false_ne_true, hsegments, hlarge] at htempo
    cases htempo

/-- A cue with a parameter under each kind of rule. -/
def ringingBells : Cue where
  name := "bells"
  category := some "sfx"
  params := [("repeat", .int 3), ("intensity", .number (.real (.finite (1 / 2)))),
    ("pan", .text "Left"), ("duration_beats", .int 8), ("x-room", .text "large"),
    ("track", .int 2)]
  args := []

/-- A song with such a cue and a tempo change. -/
def bellSong : Song where
  title := none
  bpm := .int 120
  beatsPerBar := .int 4
  key := none
  version := defaultVersion
  timeSignature := none
  instruments := []
  tempoChanges := [⟨.int 16, .number (.real (.finite (181 / 2)))⟩]
  sections := [⟨"a", "A", [.lyric "la" 2, .cue ringingBells 3], 1⟩]

/-- Nothing is reported on the song, so it is valid, also where checks are strict. -/
theorem areWarnings_iff_isValid_bellSong :
    validate .binary64 { Config.standard with strict := true }
        (some (.ofNames [] [("Bells", "sfx")])) bellSong = .ok [] ∧
      bellSong.IsValid { Config.standard with strict := true }
        (some (.ofNames [] [("Bells", "sfx")])) := by
  have h : validate .binary64 { Config.standard with strict := true }
      (some (.ofNames [] [("Bells", "sfx")])) bellSong = .ok [] := by
    decide +kernel
  have hcues : ∀ part ∈ bellSong.sections, ∀ cue line,
      .cue cue line ∈ part.items → cue.IsFeedless := by
    intro part hpart cue line hitem
    obtain rfl := List.mem_singleton.1 hpart
    obtain ⟨rfl, -⟩ : cue = ringingBells ∧ line = 3 := by simpa using hitem
    exact ⟨by decide +kernel, by decide +kernel, by decide +kernel⟩
  exact ⟨h, (areWarnings_iff_isValid hcues h).1 Document.areWarnings_nil⟩

end CueSheet
