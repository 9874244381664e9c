import CueSheet.Proofs.Validation

/-!
# Which songs break validation

Validation collects problems and goes on, and conflicts between segments are problems too. It breaks off
at whole numbers only. One with more digits than are written cannot be quoted, so it breaks the check
that has a problem to tell of it; and among segments one that lies beyond the real numbers cannot be
asked whether it is finite. A song stumbles if one of its checks comes upon such a number
(`Song.StumblesInValidation`), and on every other song validation has a result
(`fails_validate_iff_stumbles`).

Segments are checked from the front. So of the numbers among them only those count that stand in the
first segment at fault.
-/

namespace CueSheet

variable {α β : Type}

/-! ## Conflicts and other faults -/

/-- A computation that does not fail has conflicts only. -/
theorem conflictsOnly_of_not_fails {x : Except Fault α} (h : ¬Fails x) : ConflictsOnly x :=
  fun fault hfault => absurd ⟨fault, hfault⟩ h

/-- A computation with conflicts at one segment only has conflicts only. -/
theorem ConflictsAt.conflictsOnly {start : Value} {x : Except Fault α} (h : ConflictsAt start x) :
    ConflictsOnly x := by
  intro fault hfault
  obtain ⟨why, hwhy⟩ := h fault hfault
  exact ⟨why, some start, hwhy⟩

/-- Two steps have conflicts only exactly if the first has, and the second on the result of the first.
-/
theorem conflictsOnly_bind_iff {x : Except Fault α} {f : α → Except Fault β} :
    ConflictsOnly (x >>= f) ↔ ConflictsOnly x ∧ ∀ a, x = .ok a → ConflictsOnly (f a) := by
  cases x <;> simp [ConflictsOnly]

/-- A computation that fails in one way that is no conflict has conflicts only exactly if it does not
fail. -/
theorem conflictsOnly_iff_not_fails {x : Except Fault α} {cause : Fault}
    (h : ∀ fault, x = .error fault → fault = cause)
    (hcause : ∀ why start, cause ≠ .conflict why start) : ConflictsOnly x ↔ ¬Fails x := by
  refine ⟨?_, conflictsOnly_of_not_fails⟩
  rintro hconflicts ⟨fault, hfault⟩
  obtain ⟨why, start, hconflict⟩ := hconflicts fault hfault
  exact hcause why start ((h fault hfault).symm.trans hconflict)

namespace Number

variable {x : Number}

/-- To show a number has conflicts only exactly if the number is writable. -/
theorem conflictsOnly_shown_iff : ConflictsOnly x.shown ↔ x.IsWritable := by
  have hcause (fault : Fault) (h : x.shown = .error fault) : fault = .wholeTooLong := by
    rcases bind_eq_error.1 h with h | ⟨_, -, h⟩
    · cases x with
      | real | bool => cases h
      | int n =>
        unfold write writeInt at h
        dsimp only at h
        split_ifs at h
        exact (Except.error.inj h).symm
    · cases h
  rw [conflictsOnly_iff_not_fails hcause nofun, fails_shown_iff, not_not]

/-- To ask whether a number is finite has conflicts only exactly if the number can be read as a real
number. -/
theorem conflictsOnly_checkFinite_iff :
    ConflictsOnly (x.checkFinite .binary64) ↔ ¬Fails (x.toReal .binary64) := by
  have hcause (fault : Fault) (h : x.checkFinite .binary64 = .error fault) :
      fault = .wholeTooLarge := by
    rcases bind_eq_error.1 h with h | ⟨_, -, h⟩
    · exact eq_wholeTooLarge_of_toReal h
    · cases h
  rw [conflictsOnly_iff_not_fails hcause nofun, checkFinite,
    fails_bind_of_total fun _ _ => not_fails_pure _]

end Number

/-! ## Segments -/

section Segments

variable {segment : Segment Number}

/-- The check of a tempo has conflicts only exactly if the tempo is writable, where it is not above
zero, and can be read as a real number otherwise. -/
theorem conflictsOnly_checkTempo_iff : ConflictsOnly (checkTempo .binary64 segment.values) ↔
    (segment.bpm.isPositive = false → segment.bpm.IsWritable) ∧
      (segment.bpm.isPositive = true → ¬Fails (segment.bpm.toReal .binary64)) := by
  unfold checkTempo
  rw [show segment.values.bpm.toNumber '>' = .ok segment.bpm from rfl, ok_bind]
  cases hsign : segment.bpm.isPositive with
  | false =>
    have htold (shown : String) : ConflictsOnly
        (conflictAt segment.start (.tempo shown) : Except Fault Unit) :=
      (conflictsAt_conflictAt segment.start _).conflictsOnly
    simp only [Bool.not_false, if_true, conflictsOnly_bind_iff, Number.conflictsOnly_shown_iff]
    refine ⟨fun h => ⟨fun _ => h.1, nofun⟩, fun h => ⟨h.1 trivial, fun shown _ => ⟨htold shown, ?_⟩⟩⟩
    exact fun _ h => nomatch h
  | true =>
    simp only [Bool.not_true, Bool.false_eq_true, if_false, conflictsOnly_bind_iff,
      Number.conflictsOnly_checkFinite_iff]
    refine ⟨fun h => ⟨nofun, fun _ => h.1⟩, fun h => ⟨h.2 trivial, fun finite hfinite => ?_⟩⟩
    have hwritable := Number.isWritable_of_not_fails_toReal (h.2 trivial)
    exact (conflictsAt_guard hwritable _ (conflictsAt_of_not_fails (not_fails_pure _))).conflictsOnly

/-- The check of a start has conflicts only exactly if the start can be read as a real number. -/
theorem conflictsOnly_checkStart_iff {start : Number} :
    ConflictsOnly (checkStart .binary64 start) ↔ ¬Fails (start.toReal .binary64) := by
  unfold checkStart Value.toFinite
  dsimp only
  simp only [conflictsOnly_bind_iff, Number.conflictsOnly_checkFinite_iff]
  refine ⟨fun h => h.1.1, fun h => ⟨⟨h, fun _ _ => conflictsOnly_of_not_fails (not_fails_pure _)⟩,
    fun found _ => ?_⟩⟩
  cases found with
  | some beat => exact conflictsOnly_of_not_fails (not_fails_pure _)
  | none =>
    exact (conflictsAt_shown (Number.isWritable_of_not_fails_toReal h) _ _).conflictsOnly

/-- A whole number lies beyond the real numbers. -/
def IsLarge (n : ℤ) : Prop := overflowAt ≤ |(n : ℚ)|

/-- A segment breaks the check of segments that comes to it. -/
inductive Segment.Stumbles (segment : Segment Number) : Prop where
  /-- The tempo is refused and cannot be told. -/
  | longTempo {n : ℤ} (hbpm : segment.bpm = .int n) (hsign : n < 1) (hlong : IsLong n)
  /-- The tempo is above zero, but not to be read as a real number. -/
  | largeTempo {n : ℤ} (hbpm : segment.bpm = .int n) (hsign : 1 ≤ n) (hlarge : IsLarge n)
  /-- The tempo is in order, but the start is not to be read as a real number. -/
  | largeStart {n : ℤ} (hpositive : segment.bpm.isPositive = true)
    (hfinite : segment.bpm.isFinite = true) (hstart : segment.start = .int n) (hlarge : IsLarge n)

/-- The check of a segment has conflicts only exactly if that of its tempo has and a tempo that passes
stands beside a start that can be read as a real number. -/
theorem conflictsOnly_checkOne_iff {previous : Option Number} :
    ConflictsOnly (checkOne .binary64 previous segment.values) ↔
      ConflictsOnly (checkTempo .binary64 segment.values) ∧
        (¬Fails (checkTempo .binary64 segment.values) →
          ¬Fails (segment.start.toReal .binary64)) := by
  unfold checkOne
  rw [show segment.values.start = .number segment.start from rfl]
  simp only [conflictsOnly_bind_iff, conflictsOnly_checkStart_iff]
  refine and_congr_right fun _ => ⟨fun h hpasses => ?_, fun h bpm hbpm => ?_⟩
  · obtain ⟨bpm, hbpm⟩ := not_fails_iff.1 hpasses
    exact (h bpm hbpm).1
  · have hread := h (not_fails_iff.2 ⟨bpm, hbpm⟩)
    refine ⟨hread, fun start hstart => ⟨?_, fun _ _ => conflictsOnly_of_not_fails (not_fails_pure _)⟩⟩
    obtain ⟨hsame, -⟩ := checkStart_eq_ok_iff.1 hstart
    obtain rfl := Value.number.inj hsame
    exact (conflictsAt_checkPlace (Number.isWritable_of_not_fails_toReal hread) _).conflictsOnly

/-- The check of a segment has conflicts only exactly if the segment does not break it. Its place among
the others makes no difference. -/
theorem conflictsOnly_checkOne_iff_not_stumbles {previous : Option Number} :
    ConflictsOnly (checkOne .binary64 previous segment.values) ↔ ¬segment.Stumbles := by
  rw [conflictsOnly_checkOne_iff, conflictsOnly_checkTempo_iff]
  constructor
  · rintro ⟨⟨hwritable, hread⟩, hstart⟩ (⟨hbpm, hsign, hlong⟩ | ⟨hbpm, hsign, hlarge⟩ |
      ⟨hpositive, hfinite, hbeat, hlarge⟩)
    · have hrefused : segment.bpm.isPositive = false := by
        rw [hbpm, ← Bool.not_eq_true, Number.isPositive_int_iff]
        exact not_le.2 hsign
      exact not_lt.2 hlong (hwritable hrefused _ hbpm)
    · refine hread ?_ (Number.fails_toReal_iff.2 ⟨_, hbpm, hlarge⟩)
      rw [hbpm, Number.isPositive_int_iff]
      exact hsign
    · refine hstart ?_ (Number.fails_toReal_iff.2 ⟨_, hbeat, hlarge⟩)
      have hcheck := (Number.checkFinite_eq (hread hpositive)).trans (congrArg _ hfinite)
      exact not_fails_iff.2 ⟨_, checkTempo_eq_ok_iff.2 ⟨rfl, hpositive, hcheck⟩⟩
  · intro h
    refine ⟨⟨fun hrefused => ?_, fun hpositive hfails => ?_⟩, fun hpasses hfails => ?_⟩
    · by_contra hlong
      obtain ⟨n, hbpm, hlong⟩ := Number.not_isWritable_iff.1 hlong
      rw [hbpm, ← Bool.not_eq_true, Number.isPositive_int_iff, not_le] at hrefused
      exact h (.longTempo hbpm hrefused hlong)
    · obtain ⟨n, hbpm, hlarge⟩ := Number.fails_toReal_iff.1 hfails
      rw [hbpm, Number.isPositive_int_iff] at hpositive
      exact h (.largeTempo hbpm hpositive hlarge)
    · obtain ⟨n, hbeat, hlarge⟩ := Number.fails_toReal_iff.1 hfails
      obtain ⟨bpm, hbpm⟩ := not_fails_iff.1 hpasses
      obtain ⟨hsame, hpositive, hcheck⟩ := checkTempo_eq_ok_iff.1 hbpm
      obtain rfl := Value.number.inj hsame
      have hfinite := Number.isFinite_iff.2 (Number.exists_toRat?_of_checkFinite hcheck)
      exact h (.largeStart hpositive hfinite hbeat hlarge)

/-- The check of a list of segments has conflicts only exactly if none breaks it behind segments that
pass. -/
theorem conflictsOnly_checkFrom_iff {segments : List (Segment Number)} {previous : Option Number} :
    ConflictsOnly (checkFrom .binary64 previous (segments.map Segment.values)) ↔
      ∀ front segment back, segments = front ++ segment :: back →
        ¬Fails (checkFrom .binary64 previous (front.map Segment.values)) → ¬segment.Stumbles := by
  induction segments generalizing previous with
  | nil => simp [checkFrom, conflictsOnly_of_not_fails]
  | cons first segments ih =>
    rw [List.map_cons, checkFrom_cons, conflictsOnly_bind_iff,
      conflictsOnly_checkOne_iff_not_stumbles]
    -- Segments pass if the first one does and the others pass behind it.
    have hcons {front : List (Segment Number)} :
        ¬Fails (checkFrom .binary64 previous ((first :: front).map Segment.values)) ↔
          checkOne .binary64 previous first.values = .ok first ∧
            ¬Fails (checkFrom .binary64 (some first.start) (front.map Segment.values)) := by
      rw [List.map_cons, checkFrom_cons, fails_bind_iff, not_or]
      constructor
      · rintro ⟨hone, hrest⟩
        obtain ⟨checked, hchecked⟩ := not_fails_iff.1 hone
        obtain rfl := eq_of_checkOne hchecked
        exact ⟨hchecked, fun hfails => hrest ⟨checked, hchecked, fails_bind_iff.2 (.inl hfails)⟩⟩
      · rintro ⟨hone, hrest⟩
        simp [hone, fails_bind_of_total, hrest]
    constructor
    · rintro ⟨hfirst, hrest⟩ front segment back hsegments hpasses
      cases front with
      | nil =>
        obtain ⟨rfl, rfl⟩ := List.cons.inj hsegments
        exact hfirst
      | cons head front =>
        obtain ⟨rfl, rfl⟩ := List.cons.inj hsegments
        obtain ⟨hone, hpasses⟩ := hcons.1 hpasses
        exact ih.1 (conflictsOnly_bind_iff.1 (hrest first hone)).1 front segment back rfl hpasses
    · intro h
      refine ⟨h [] first segments rfl (not_fails_pure _), fun checked hone => ?_⟩
      obtain rfl := eq_of_checkOne hone
      refine conflictsOnly_bind_iff.2 ⟨ih.2 ?_, fun _ _ => conflictsOnly_of_not_fails (not_fails_ok _)⟩
      rintro front segment back rfl hpasses
      exact h (checked :: front) segment back rfl (hcons.2 ⟨hone, hpasses⟩)

/-- The check of segments has conflicts only exactly if none breaks it behind segments that make a tempo
map. -/
theorem conflictsOnly_checkSegments_iff {segments : List (Segment Number)} :
    ConflictsOnly (checkSegments .binary64 (segments.map Segment.values)) ↔
      ∀ front segment back, segments = front ++ segment :: back →
        (front = [] ∨ TempoMap.IsValid .binary64 front) → ¬segment.Stumbles := by
  simp only [checkSegments, conflictsOnly_checkFrom_iff,
    ← TempoMap.not_fails_checkSegments_iff_isValid]

end Segments

/-! ## Cues -/

namespace Validation

/-- A parameter breaks the check of its cue. -/
inductive ParamStumbles (limit : ℕ) : String → Value → Prop where
  /-- A number of repeats is out of its bounds and cannot be told. -/
  | repeats {n : ℤ} (hbounds : n < 1 ∨ (limit : ℤ) < n) (hlong : IsLong n) :
    ParamStumbles limit "repeat" (.int n)
  /-- An intensity, a volume or a position, which lie between minus one and one, cannot be told. -/
  | ranged {key : String} {n : ℤ} (hkey : key ∈ "pan" :: unitKeys) (hlong : IsLong n) :
    ParamStumbles limit key (.int n)
  /-- A time in beats is below zero and cannot be told. -/
  | time {key : String} {n : ℤ} (hkey : key ∈ beatKeys) (hsign : n < 0) (hlong : IsLong n) :
    ParamStumbles limit key (.int n)
  /-- A time that was not read as a duration cannot be told. -/
  | untimed {key : String} {n : ℤ} (hkey : (TimingKey.ofName? key).isSome = true)
    (hlong : IsLong n) : ParamStumbles limit key (.int n)

/-- A cue of scalars without a key twice fails to be checked exactly if one of its parameters breaks the
check. -/
theorem fails_cueProblems_iff {limit : ℕ} {names : Option Namespace} {cue : Cue}
    (hscalar : ∀ param ∈ cue.params, param.2.IsScalar) (hkeys : (cue.params.map (·.1)).Nodup) :
    Fails (cueProblems limit names cue) ↔
      ∃ key value, (key, value) ∈ cue.params ∧ ParamStumbles limit key value := by
  have hlookup {key : String} {value : Value} :
      cue.params.lookup key = some value ↔ (key, value) ∈ cue.params :=
    ⟨mem_of_lookup, lookup_of_mem hkeys⟩
  simp only [fails_cueProblems_iff_checks, hlookup]
  -- In order: the repeats, the values up to one, the position, and each parameter for itself.
  constructor
  · rintro (⟨value, hmem, hfails⟩ | ⟨key, hkey, value, hmem, hfails⟩ | ⟨value, hmem, hfails⟩ |
      ⟨⟨key, value⟩, hmem, hfails⟩)
    · obtain ⟨n, rfl, hlong, hbounds⟩ := (fails_repeatProblems_iff _ (hscalar _ hmem)).1 hfails
      exact ⟨_, _, hmem, .repeats hbounds hlong⟩
    · obtain ⟨n, rfl, hlong⟩ := (fails_unitProblems_iff _ (hscalar _ hmem)).1 hfails
      exact ⟨_, _, hmem, .ranged (List.mem_cons_of_mem _ hkey) hlong⟩
    · obtain ⟨n, rfl, hlong⟩ := (fails_panProblems_iff (hscalar _ hmem)).1 hfails
      exact ⟨_, _, hmem, .ranged List.mem_cons_self hlong⟩
    · obtain ⟨n, hn, hlong, hkey⟩ := (fails_parameterProblems_iff _ (hscalar _ hmem)).1 hfails
      obtain rfl : value = .int n := hn
      rcases hkey with ⟨hkey, hsign⟩ | hkey
      · exact ⟨_, _, hmem, .time hkey hsign hlong⟩
      · exact ⟨_, _, hmem, .untimed hkey hlong⟩
  · rintro ⟨key, value, hmem, hstumbles⟩
    have hvalue := hscalar _ hmem
    cases hstumbles with
    | repeats hbounds hlong =>
      exact .inl ⟨_, hmem, (fails_repeatProblems_iff _ hvalue).2 ⟨_, rfl, hlong, hbounds⟩⟩
    | ranged hkey hlong =>
      rcases List.mem_cons.1 hkey with rfl | hkey
      · exact .inr (.inr (.inl ⟨_, hmem, (fails_panProblems_iff hvalue).2 ⟨_, rfl, hlong⟩⟩))
      · exact .inr (.inl ⟨key, hkey, _, hmem, (fails_unitProblems_iff _ hvalue).2 ⟨_, rfl, hlong⟩⟩)
    | time hkey hsign hlong =>
      exact .inr (.inr (.inr ⟨_, hmem,
        (fails_parameterProblems_iff _ hvalue).2 ⟨_, rfl, hlong, .inl ⟨hkey, hsign⟩⟩⟩))
    | untimed hkey hlong =>
      exact .inr (.inr (.inr ⟨_, hmem,
        (fails_parameterProblems_iff _ hvalue).2 ⟨_, rfl, hlong, .inr hkey⟩⟩))

/-- An item fails to be checked exactly if it is a cue and the check of the cue fails. -/
theorem fails_itemDiagnostics_iff {config : Config} {names : Option Namespace} {item : Item} :
    Fails (itemDiagnostics config names item) ↔ ∃ cue line, item = .cue cue line ∧
      Fails (cueProblems config.maxRepeat names cue) := by
  cases item with
  | performance | lyric | raw => simp [itemDiagnostics]
  | cue cue line =>
    rw [itemDiagnostics, fails_bind_of_total fun _ _ => not_fails_pure _]
    simp

end Validation

/-! ## Songs -/

/-- No list and no record stands in a song where a quantity is meant. -/
structure Song.IsScalar (song : Song) : Prop where
  /-- The tempo is neither. -/
  bpm : song.bpm.IsScalar
  /-- The number of beats in a bar is neither. -/
  beatsPerBar : song.beatsPerBar.IsScalar
  /-- The tempo changes are made of quantities. -/
  changes : ∀ change ∈ song.tempoChanges, ∃ segment : Segment Number, change = segment.values
  /-- No parameter of a cue is one. -/
  params : ∀ part ∈ song.sections, ∀ cue line, .cue cue line ∈ part.items →
    ∀ param ∈ cue.params, param.2.IsScalar
  /-- No cue has a key twice. -/
  keys : ∀ part ∈ song.sections, ∀ cue line, .cue cue line ∈ part.items →
    (cue.params.map (·.1)).Nodup

/-- A song breaks its validation, given the greatest number of repeats. -/
inductive Song.Stumbles (limit : ℕ) (song : Song) : Prop where
  /-- The tempo is refused and cannot be told. -/
  | bpm {n : ℤ} (hbpm : song.bpm = .int n) (hsign : n < 1) (hlong : IsLong n)
  /-- The number of beats in a bar is refused and cannot be told. -/
  | beatsPerBar {n : ℤ} (hbeats : song.beatsPerBar = .int n) (hsign : n < 1) (hlong : IsLong n)
  /-- The tempo is in order, and a segment breaks the check of segments that has passed all in front of
  it. -/
  | segment {front back : List (Segment Number)} {segment : Segment Number}
    (hbpm : Validation.isTempo song.bpm = true)
    (hsegments : song.segments = (front ++ segment :: back).map Segment.values)
    (hfront : front = [] ∨ TempoMap.IsValid .binary64 front) (hstumbles : segment.Stumbles)
  /-- A parameter breaks the check of its cue. -/
  | param {part : Section} {cue : Cue} {line : ℤ} {key : String} {value : Value}
    (hpart : part ∈ song.sections) (hitem : .cue cue line ∈ part.items)
    (hmem : (key, value) ∈ cue.params) (hstumbles : Validation.ParamStumbles limit key value)

variable {song : Song}

/-- The segments in effect for a song of scalars with a tempo are made of quantities. -/
theorem Song.IsScalar.exists_segments (h : song.IsScalar)
    (hbpm : Validation.isTempo song.bpm = true) :
    ∃ segments : List (Segment Number), song.segments = segments.map Segment.values := by
  obtain ⟨bpm, hnumber⟩ : ∃ bpm, song.bpm = .number bpm := by
    cases hvalue : song.bpm with
    | number bpm => exact ⟨bpm, rfl⟩
    | null | text | list | record =>
      rw [hvalue] at hbpm
      cases hbpm
  obtain ⟨changes, hchanges, -⟩ := exists_eq_map_of_forall (P := fun _ => True)
    fun change hchange => (h.changes change hchange).imp fun _ hsame => ⟨hsame, trivial⟩
  unfold Song.segments
  split_ifs
  · exact ⟨changes, hchanges⟩
  · exact ⟨⟨.int 0, bpm⟩ :: changes, by rw [hnumber, hchanges]; rfl⟩

/-- The tempo map of a song of scalars fails to be checked exactly if the song has a tempo and a segment
breaks the check behind segments that make a tempo map. -/
theorem Validation.fails_tempoProblems_iff_stumbles (h : song.IsScalar) :
    Fails (tempoProblems .binary64 song) ↔ isTempo song.bpm = true ∧ ∃ front segment back,
      song.segments = (front ++ segment :: back).map Segment.values ∧
        (front = [] ∨ TempoMap.IsValid .binary64 front) ∧ segment.Stumbles := by
  rw [fails_tempoProblems_iff]
  refine and_congr_right fun hbpm => ?_
  obtain ⟨segments, hsegments⟩ := h.exists_segments hbpm
  have hsame (others : List (Segment Number)) :
      segments.map Segment.values = others.map Segment.values ↔ segments = others :=
    (List.map_injective_iff.2 Segment.values_injective).eq_iff
  rw [hsegments, conflictsOnly_checkSegments_iff]
  simp only [hsame]
  push Not
  rfl

/-- Validation of a song of scalars fails exactly if the song stumbles. On every other one it has a
result, whatever it has to report. -/
theorem fails_validate_iff_stumbles (config : Config) (names : Option Namespace)
    (h : song.IsScalar) :
    Fails (validate .binary64 config names song) ↔ song.Stumbles config.maxRepeat := by
  rw [fails_validate_iff_checks, Validation.fails_songProblems_iff h.bpm h.beatsPerBar,
    Validation.fails_tempoProblems_iff_stumbles h]
  simp only [Validation.fails_itemDiagnostics_iff, List.mem_flatMap]
  constructor
  · rintro ((⟨n, hbpm, hlong, hsign⟩ | ⟨n, hbeats, hlong, hsign⟩) |
      ⟨hbpm, front, segment, back, hsegments, hfront, hstumbles⟩ |
      ⟨item, ⟨part, hpart, hitem⟩, cue, line, rfl, hfails⟩)
    · exact .bpm hbpm hsign hlong
    · exact .beatsPerBar hbeats hsign hlong
    · exact .segment hbpm hsegments hfront hstumbles
    · obtain ⟨key, value, hmem, hstumbles⟩ := (Validation.fails_cueProblems_iff
        (h.params part hpart cue line hitem) (h.keys part hpart cue line hitem)).1 hfails
      exact .param hpart hitem hmem hstumbles
  · rintro (⟨hbpm, hsign, hlong⟩ | ⟨hbeats, hsign, hlong⟩ | ⟨hbpm, hsegments, hfront, hstumbles⟩ |
      ⟨hpart, hitem, hmem, hstumbles⟩)
    · exact .inl (.inl ⟨_, hbpm, hlong, hsign⟩)
    · exact .inl (.inr ⟨_, hbeats, hlong, hsign⟩)
    · exact .inr (.inl ⟨hbpm, _, _, _, hsegments, hfront, hstumbles⟩)
    · exact .inr (.inr ⟨_, ⟨_, hpart, hitem⟩, _, _, rfl, (Validation.fails_cueProblems_iff
        (h.params _ hpart _ _ hitem) (h.keys _ hpart _ _ hitem)).2 ⟨_, _, hmem, hstumbles⟩⟩)

/-- A song with a tempo beyond the real numbers. -/
def fastSong : Song where
  title := none
  bpm := .int (tenTo 400)
  beatsPerBar := .int 4
  key := none
  version := defaultVersion
  timeSignature := none
  instruments := []
  tempoChanges := []
  sections := [⟨"a", "A", [], 1⟩]

/-- The song with the tempo beyond the real numbers is one of scalars. -/
theorem isScalar_fastSong : fastSong.IsScalar := by
  have hitems (cue : Cue) (line : ℤ) (part : Section) (hpart : part ∈ fastSong.sections) :
      .cue cue line ∉ part.items := by
    obtain rfl := List.mem_singleton.1 hpart
    exact List.not_mem_nil
  exact ⟨trivial, trivial, nofun, fun part hpart cue line hitem =>
    absurd hitem (hitems cue line part hpart), fun part hpart cue line hitem =>
    absurd hitem (hitems cue line part hpart)⟩

/-- The song stumbles over its tempo, so it has no diagnostics. -/
theorem fails_validate_iff_stumbles_fastSong :
    fastSong.IsScalar ∧ fastSong.Stumbles Config.standard.maxRepeat ∧
      Fails (validate .binary64 Config.standard none fastSong) := by
  have hlarge : IsLarge (tenTo 400) := by
    unfold IsLarge
    decide +kernel
  let segment : Segment Number := ⟨.int 0, .int (tenTo 400)⟩
  have hsegment : segment.Stumbles := .largeTempo rfl (by decide +kernel) hlarge
  have hsegments : fastSong.segments = ([] ++ segment :: []).map Segment.values := rfl
  have hstumbles : fastSong.Stumbles Config.standard.maxRepeat :=
    .segment (by decide +kernel) hsegments (.inl rfl) hsegment
  exact ⟨isScalar_fastSong, hstumbles,
    (fails_validate_iff_stumbles Config.standard none isScalar_fastSong).2 hstumbles⟩

/-- A tempo is a number above zero, and yet the validation of a song with one fails. -/
theorem fails_validate_fastSong : fastSong.IsScalar ∧ Validation.isTempo fastSong.bpm = true ∧
    Fails (validate .binary64 Config.standard none fastSong) :=
  ⟨isScalar_fastSong, by decide +kernel, .wholeTooLarge, by decide +kernel⟩

end CueSheet
