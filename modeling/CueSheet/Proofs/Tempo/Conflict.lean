import CueSheet.Proofs.Document.Sound
import CueSheet.Proofs.Tempo.Check

/-!
# What the check of segments tells

The check of segments looks at quantities that may be infinite or undefined. As long as each of them
can be read as a real number, it fails in one way only: with a conflict, and at the start of the first
segment at fault (`exists_of_checkSegments_eq_error`). There is no fault of a quantity that cannot be
compared, read or written.

The tempo changes of a sound song are such segments. They may still be in no order, and then the
tempo map of the song cannot be built because of a conflict (`TempoMap.conflictsOnly_ofSong`).
-/

namespace CueSheet

variable {α β : Type}

/-! ## Conflicts -/

/-- A computation fails with a conflict between segments if it fails. -/
def ConflictsOnly (x : Except Fault α) : Prop :=
  ∀ fault, x = .error fault → ∃ why start, fault = .conflict why start

/-- A computation fails with a conflict at a segment that starts at the given beat if it fails. -/
def ConflictsAt (start : Value) (x : Except Fault α) : Prop :=
  ∀ fault, x = .error fault → ∃ why, fault = .conflict why (some start)

section ConflictsAt

variable {start : Value} {x : Number}

/-- A computation that does not fail has no conflict. -/
theorem conflictsAt_of_not_fails {x : Except Fault α} (h : ¬Fails x) : ConflictsAt start x :=
  fun fault hfault => absurd ⟨fault, hfault⟩ h

/-- A conflict is one. -/
theorem conflictsAt_conflictAt (start : Value) (why : Conflict) :
    ConflictsAt start (conflictAt start why : Except Fault α) := by
  rintro fault h
  obtain rfl := Except.error.inj h
  exact ⟨why, rfl⟩

/-- Two steps conflict only if each of them does. -/
theorem ConflictsAt.bind {x : Except Fault α} {f : α → Except Fault β} (hx : ConflictsAt start x)
    (hf : ∀ a, x = .ok a → ConflictsAt start (f a)) : ConflictsAt start (x >>= f) := by
  intro fault h
  rcases bind_eq_error.1 h with h | ⟨a, ha, h⟩
  · exact hx fault h
  · exact hf a ha fault h

/-- A conflict that is told of a quantity that can be written is one. -/
theorem conflictsAt_shown (hx : x.IsWritable) (start : Value) (why : String → Conflict) :
    ConflictsAt start (x.shown >>= fun shown => (conflictAt start (why shown) : Except Fault α)) :=
  (conflictsAt_of_not_fails hx.not_fails_shown).bind fun _ _ => conflictsAt_conflictAt _ _

/-- So is a conflict under a condition, if nothing else comes of what follows. -/
theorem conflictsAt_guard {condition : Prop} [Decidable condition] (hx : x.IsWritable)
    (why : String → Conflict) {rest : Except Fault α} (hrest : ConflictsAt start rest) :
    ConflictsAt start (if condition then
      x.shown >>= fun shown => conflictAt start (why shown) >>= fun _ : Unit => rest
      else rest) := by
  split_ifs
  · exact (conflictsAt_of_not_fails hx.not_fails_shown).bind fun _ _ =>
      (conflictsAt_conflictAt _ _).bind fun _ _ => hrest
  · exact hrest

end ConflictsAt

/-! ## Checks of one segment -/

/-- A quantity that can be read as a real number can be asked whether it is finite. -/
theorem Number.checkFinite_eq {x : Number} (h : ¬Fails (x.toReal .binary64)) :
    x.checkFinite .binary64 = .ok x.isFinite := by
  cases x with
  | real | bool => rfl
  | int n =>
    rw [toReal_int] at h
    split_ifs at h with hlarge
    · exact absurd (fails_error _) h
    · rw [checkFinite, toReal_int, if_neg hlarge, ok_bind, isFinite_unlimited]
      rfl

/-- A kept quantity can be asked whether it is finite. -/
theorem Number.IsKept.checkFinite {x : Number} (h : x.IsKept) :
    x.checkFinite .binary64 = .ok x.isFinite := checkFinite_eq h.not_fails_toReal

/-- An amount is finite. -/
theorem Number.IsAmount.checkFinite {x : Number} (h : x.IsAmount) :
    x.checkFinite .binary64 = .ok true := by
  obtain ⟨q, hq, -⟩ := h.nonneg
  rw [h.kept.checkFinite, isFinite_iff.2 ⟨q, hq⟩]

/-- The quantities of a segment can meet real numbers. -/
structure Segment.IsKept (segment : Segment Number) : Prop where
  /-- The start can. -/
  start : segment.start.IsKept
  /-- The tempo can. -/
  bpm : segment.bpm.IsKept

section Kept

variable {segment : Segment Number}

/-- A tempo that is kept conflicts only. -/
theorem conflictsAt_checkTempo (h : segment.bpm.IsKept) :
    ConflictsAt segment.start (checkTempo .binary64 segment.values) := by
  have hfinite : ConflictsAt (segment.start : Value) (segment.bpm.checkFinite .binary64) := by
    rw [h.checkFinite]
    exact conflictsAt_of_not_fails (not_fails_ok _)
  unfold checkTempo
  exact conflictsAt_guard h.isWritable _ (hfinite.bind fun _ _ =>
    conflictsAt_guard h.isWritable _ (conflictsAt_of_not_fails (not_fails_pure _)))

/-- A start that is kept conflicts only. -/
theorem conflictsAt_checkStart {start : Number} (h : start.IsKept) :
    ConflictsAt start (checkStart .binary64 start) := by
  unfold checkStart Value.toFinite
  dsimp only
  rw [h.checkFinite, ok_bind]
  cases start.isFinite with
  | true => exact conflictsAt_of_not_fails (not_fails_pure _)
  | false => exact conflictsAt_shown h.isWritable _ _

/-- The place of a segment conflicts only. -/
theorem conflictsAt_checkPlace {start : Number} (h : start.IsWritable) (previous : Option Number) :
    ConflictsAt start (checkPlace previous start) := by
  unfold checkPlace
  cases previous with
  | none =>
    dsimp only
    split_ifs
    · exact conflictsAt_of_not_fails (not_fails_pure _)
    · exact conflictsAt_conflictAt _ _
  | some previous =>
    refine conflictsAt_guard h _ ?_
    split_ifs
    · exact conflictsAt_shown h _ _
    · exact conflictsAt_of_not_fails (not_fails_pure _)

/-- Checks a segment that stands behind a start, and reads it as quantities. -/
def checkOne (ρ : Rounding) (previous : Option Number) (segment : Segment Value) :
    Except Fault (Segment Number) := do
  let bpm ← checkTempo ρ segment
  let start ← checkStart ρ segment.start
  checkPlace previous start
  return ⟨start, bpm⟩

/-- The check of segments checks the first one, and the others behind it. -/
theorem checkFrom_cons (ρ : Rounding) (previous : Option Number) (segment : Segment Value)
    (segments : List (Segment Value)) :
    checkFrom ρ previous (segment :: segments) = checkOne ρ previous segment >>= fun checked =>
      checkFrom ρ (some checked.start) segments >>= fun rest => .ok (checked :: rest) := by
  rw [checkFrom, checkOne]
  simp only [bind_assoc, pure_bind]
  rfl

/-- A segment that is kept conflicts only. -/
theorem conflictsAt_checkOne (h : segment.IsKept) (previous : Option Number) :
    ConflictsAt segment.start (checkOne .binary64 previous segment.values) := by
  refine (conflictsAt_checkTempo h.bpm).bind fun bpm _ =>
    (conflictsAt_checkStart h.start).bind fun start hstart => ?_
  obtain rfl := Value.number.inj (checkStart_eq_ok_iff.1 hstart).1
  exact (conflictsAt_checkPlace h.start.isWritable previous).bind fun _ _ =>
    conflictsAt_of_not_fails (not_fails_pure _)

/-- A segment that passes is read as what it is. -/
theorem eq_of_checkOne {ρ : Rounding} {previous : Option Number} {checked : Segment Number}
    (h : checkOne ρ previous segment.values = .ok checked) : checked = segment := by
  obtain ⟨bpm, hbpm, h⟩ := bind_eq_ok.1 h
  obtain ⟨start, hstart, h⟩ := bind_eq_ok.1 h
  obtain ⟨⟨⟩, -, h⟩ := bind_eq_ok.1 h
  obtain rfl := pure_eq_ok_iff.1 h
  exact Segment.values_injective (congrArg₂ Segment.mk (checkStart_eq_ok_iff.1 hstart).1.symm
    (checkTempo_eq_ok_iff.1 hbpm).1.symm)

end Kept

/-! ## The first segment at fault -/

/-- A check of kept segments that fails has passed all segments in front of one, and it tells a
conflict at that one. -/
theorem exists_of_checkFrom_eq_error {segments : List (Segment Number)}
    (hkept : ∀ segment ∈ segments, segment.IsKept) {previous : Option Number} {fault : Fault}
    (h : checkFrom .binary64 previous (segments.map Segment.values) = .error fault) :
    ∃ front segment back why, segments = front ++ segment :: back ∧
      fault = .conflict why (some segment.start) ∧
      ¬Fails (checkFrom .binary64 previous (front.map Segment.values)) ∧
      Fails (checkFrom .binary64 previous ((front ++ [segment]).map Segment.values)) := by
  induction segments generalizing previous with
  | nil => cases h
  | cons segment segments ih =>
    rw [List.forall_mem_cons] at hkept
    rw [List.map_cons, checkFrom_cons] at h
    rcases bind_eq_error.1 h with hone | ⟨checked, hone, hlater⟩
    · obtain ⟨why, rfl⟩ := conflictsAt_checkOne hkept.1 previous fault hone
      refine ⟨[], segment, segments, why, rfl, rfl, not_fails_pure _, ?_⟩
      rw [List.nil_append, List.map_cons, checkFrom_cons, hone]
      exact fails_error _
    · obtain rfl := eq_of_checkOne hone
      -- The first segment passes, so the fault is one of the check of the others behind it.
      have hrest : checkFrom .binary64 (some checked.start) (segments.map Segment.values) =
          .error fault := by
        rcases bind_eq_error.1 hlater with hlater | ⟨_, -, hlater⟩
        · exact hlater
        · cases hlater
      obtain ⟨front, segment, back, why, rfl, rfl, hpasses, hfails⟩ := ih hkept.2 hrest
      have hcons (others : List (Segment Number)) :
          Fails (checkFrom .binary64 previous ((checked :: others).map Segment.values)) ↔
            Fails (checkFrom .binary64 (some checked.start) (others.map Segment.values)) := by
        rw [List.map_cons, checkFrom_cons, hone, ok_bind]
        exact fails_bind_of_total fun _ _ => not_fails_ok _
      exact ⟨checked :: front, segment, back, why, rfl, rfl, (hcons front).not.2 hpasses,
        (hcons (front ++ [segment])).2 hfails⟩

namespace TempoMap

variable {segments : List (Segment Number)}

/-- Segments that the check has nothing against. There may be none. -/
structure Faultless (segments : List (Segment Number)) : Prop where
  /-- The starts are finite. -/
  start : ∀ segment ∈ segments, segment.start.isFinite = true
  /-- The tempos are finite. -/
  bpm : ∀ segment ∈ segments, segment.bpm.isFinite = true
  /-- The tempos are above zero. -/
  isPositive : ∀ segment ∈ segments, segment.bpm.isPositive = true
  /-- The first segment starts at beat zero. -/
  first : ∀ segment ∈ segments.head?, segment.start.eq (.int 0) = true
  /-- The starts increase. -/
  increasing : Increasing segments

/-- Kept segments are without a fault exactly if there are none, or if they make a tempo map. -/
theorem faultless_iff_isValid (hkept : ∀ segment ∈ segments, segment.IsKept) (hne : segments ≠ []) :
    Faultless segments ↔ IsValid .binary64 segments := by
  have hfinite {x : Number} (hx : x.IsKept) :
      x.checkFinite .binary64 = .ok true ↔ x.isFinite = true := by
    rw [hx.checkFinite, Except.ok.injEq]
  constructor
  · intro h
    obtain ⟨first, rest, rfl⟩ := List.exists_cons_of_ne_nil hne
    refine ⟨⟨first, rfl, h.first first rfl⟩, fun segment hsegment => ?_, h.increasing⟩
    have hsegmentKept := hkept segment hsegment
    exact ⟨(hfinite hsegmentKept.start).2 (h.start segment hsegment), h.isPositive segment hsegment,
      (hfinite hsegmentKept.bpm).2 (h.bpm segment hsegment)⟩
  · intro h
    refine ⟨fun segment hsegment => ?_, fun segment hsegment => ?_, fun segment hsegment =>
      (h.checked segment hsegment).isPositive, fun segment hsegment => ?_, h.increasing⟩
    · exact (hfinite (hkept segment hsegment).start).1 (h.checked segment hsegment).start
    · exact (hfinite (hkept segment hsegment).bpm).1 (h.checked segment hsegment).bpm
    · obtain ⟨first, hfirst, hzero⟩ := h.first
      obtain rfl := Option.mem_unique hfirst hsegment
      exact hzero

/-- The check passes segments exactly if there are none, or if they make a tempo map. -/
theorem not_fails_checkSegments_iff_isValid {ρ : Rounding} :
    ¬Fails (checkSegments ρ (segments.map Segment.values)) ↔ segments = [] ∨ IsValid ρ segments := by
  by_cases hne : segments = []
  · subst hne
    exact iff_of_true (not_fails_pure _) (.inl rfl)
  · rw [or_iff_right hne, not_fails_iff]
    simp only [checkSegments_eq_ok_iff (List.map_eq_nil_iff.not.2 hne)]
    constructor
    · rintro ⟨checked, hsame, hvalid⟩
      rwa [List.map_injective_iff.2 Segment.values_injective hsame]
    · exact fun hvalid => ⟨segments, rfl, hvalid⟩

/-- The check passes kept segments exactly if they are without a fault. -/
theorem not_fails_checkSegments_iff (hkept : ∀ segment ∈ segments, segment.IsKept) :
    ¬Fails (checkSegments .binary64 (segments.map Segment.values)) ↔ Faultless segments := by
  rw [not_fails_checkSegments_iff_isValid]
  by_cases hne : segments = []
  · subst hne
    exact iff_of_true (.inl rfl) ⟨nofun, nofun, nofun, nofun, .nil⟩
  · rw [or_iff_right hne, faultless_iff_isValid hkept hne]

/-- The check of kept segments fails with a conflict at the start of the first segment at fault. -/
theorem exists_of_checkSegments_eq_error (hkept : ∀ segment ∈ segments, segment.IsKept)
    {fault : Fault} (h : checkSegments .binary64 (segments.map Segment.values) = .error fault) :
    ∃ front segment back why, segments = front ++ segment :: back ∧
      fault = .conflict why (some segment.start) ∧ Faultless front ∧
      ¬Faultless (front ++ [segment]) := by
  obtain ⟨front, segment, back, why, rfl, rfl, hpasses, hfails⟩ :=
    exists_of_checkFrom_eq_error hkept h
  have hfront : ∀ segment ∈ front, segment.IsKept := fun segment hsegment =>
    hkept segment (List.mem_append_left _ hsegment)
  have hupto : ∀ other ∈ front ++ [segment], other.IsKept := fun other hother =>
    hkept other (List.append_cons .. ▸ List.mem_append_left back hother)
  refine ⟨front, segment, back, why, rfl, rfl, (not_fails_checkSegments_iff hfront).1 hpasses, ?_⟩
  exact fun hfaultless => (not_fails_checkSegments_iff hupto).2 hfaultless hfails

end TempoMap

/-! ## Songs -/

/-- A segment is in effect in every song. -/
theorem Song.segments_ne_nil (song : Song) : song.segments ≠ [] := by
  unfold Song.segments
  split_ifs with hstart
  · rintro hempty
    rw [Song.declaresStart, hempty] at hstart
    cases hstart
  · exact List.cons_ne_nil _ _

/-- The tempo map of a song fails to be built exactly where the check of its segments fails. -/
theorem TempoMap.ofSong_eq_error_iff {ρ : Rounding} {song : Song} {fault : Fault} :
    ofSong ρ song = .error fault ↔ checkSegments ρ song.segments = .error fault := by
  rw [ofSong, ofSegments_eq song.segments_ne_nil]
  cases checkSegments ρ song.segments <;> simp

/-- The tempo of a song is one, and its tempo and its tempo changes are numbers that can meet real
numbers. -/
structure Song.HasKeptTempos (song : Song) : Prop where
  /-- The tempo is a quantity that is finite, above zero and kept. -/
  bpm : ∃ bpm : Number, song.bpm = .number bpm ∧ bpm.isTempo = true ∧ bpm.IsKept
  /-- The tempo changes are segments of kept quantities. -/
  changes : ∀ change ∈ song.tempoChanges, ∃ segment : Segment Number,
    change = segment.values ∧ segment.IsKept

/-- The segments in effect for a song with kept tempos are kept. -/
theorem Song.HasKeptTempos.exists_segments {song : Song} (h : song.HasKeptTempos) :
    ∃ segments : List (Segment Number), song.segments = segments.map Segment.values ∧
      ∀ segment ∈ segments, segment.IsKept := by
  obtain ⟨bpm, hbpm, -, hkept⟩ := h.bpm
  have hall : ∀ given ∈ song.segments, ∃ segment : Segment Number,
      given = segment.values ∧ segment.IsKept := by
    unfold Song.segments
    split_ifs
    · exact h.changes
    · exact List.forall_mem_cons.2
        ⟨⟨⟨.int 0, bpm⟩, by rw [hbpm]; rfl, Number.isKept_zero, hkept⟩, h.changes⟩
  exact exists_eq_map_of_forall hall

/-- The segments of a song with kept tempos conflict only. -/
theorem Song.HasKeptTempos.conflictsOnly_checkSegments {song : Song} (h : song.HasKeptTempos) :
    ConflictsOnly (checkSegments .binary64 song.segments) := by
  obtain ⟨segments, hsegments, hkept⟩ := h.exists_segments
  intro fault hfault
  rw [hsegments] at hfault
  obtain ⟨_, segment, _, why, -, rfl, -⟩ :=
    TempoMap.exists_of_checkSegments_eq_error hkept hfault
  exact ⟨why, _, rfl⟩

/-- A sound song has kept tempos. -/
theorem Song.IsSound.hasKeptTempos {song : Song} (h : song.IsSound) : song.HasKeptTempos := by
  refine ⟨h.bpm, fun change hchange => ?_⟩
  obtain ⟨start, bpm, rfl, hstart, hbpm⟩ := h.changes change hchange
  exact ⟨⟨start, bpm⟩, rfl, hstart.kept, hbpm.kept⟩

/-- An amount from a tempo. -/
theorem Number.isAmount_of_isTempo {x : Number} (h : x.isTempo = true) (hkept : x.IsKept) :
    x.IsAmount := by
  obtain ⟨hnumeric, q, hq, hpositive⟩ := isTempo_iff.1 h
  exact ⟨hnumeric, hkept, q, hq, hpositive.le⟩

/-- The segments in effect for a sound song are segments of amounts. -/
theorem Song.IsSound.segments {song : Song} (h : song.IsSound) :
    ∀ segment ∈ song.segments, segment.IsSound := by
  unfold Song.segments
  split_ifs
  · exact h.changes
  · intro segment hsegment
    rcases List.mem_cons.1 hsegment with rfl | hsegment
    · obtain ⟨bpm, hbpm, htempo, hkept⟩ := h.bpm
      exact ⟨.int 0, bpm, by rw [hbpm], ⟨rfl, Number.isKept_zero, 0, rfl, le_rfl⟩,
        Number.isAmount_of_isTempo htempo hkept⟩
    · exact h.changes segment hsegment

/-- The tempo map of a sound song fails to be built by conflicts only. -/
theorem TempoMap.conflictsOnly_ofSong {song : Song} (h : song.IsSound) :
    ConflictsOnly (TempoMap.ofSong .binary64 song) := fun fault hfault =>
  h.hasKeptTempos.conflictsOnly_checkSegments fault (ofSong_eq_error_iff.1 hfault)

end CueSheet
