import Mathlib.Tactic.FieldSimp
import Mathlib.Tactic.Linarith
import Mathlib.Tactic.Ring
import CueSheet.Proofs.Numeric.Exact
import CueSheet.Proofs.Tempo.Cache

/-!
# Beats and seconds are inverse to each other

With exact arithmetic a tempo map has a time for every beat from zero on and a beat for every time
from zero on, and one undoes the other (`TempoMap.beatAt_secondsAt_exact`). The beat is looked up
among the starts of the segments and the time among their offsets, so both searches have to end in
the same segment.

The argument is about rational segments. Along these a walk adds up the time of a beat (`secondsOf`)
or the beat at a time (`beatOf`), segment by segment. Both walks leave the first segment on the same
condition, because the time goes up with the beat, and inside one segment they undo each other. The
searches of a tempo map do what the walks do.
-/

namespace CueSheet

/-! ## Rational segments -/

/-- The time from the start of a segment to a beat at the tempo of the segment. -/
def spanOf (segment : Segment ℚ) (beat : ℚ) : ℚ := (beat - segment.start) * 60 / segment.bpm

/-- The time of a beat along segments, the first of which starts at a given time. -/
def secondsOf (beat offset : ℚ) : List (Segment ℚ) → ℚ
  | [] => offset
  | [segment] => offset + spanOf segment beat
  | segment :: next :: segments =>
    if beat < next.start then offset + spanOf segment beat
    else secondsOf beat (offset + spanOf segment next.start) (next :: segments)

/-- The beat at a time that is reached in a segment that starts at a given time. -/
def beatIn (segment : Segment ℚ) (offset seconds : ℚ) : ℚ :=
  segment.start + (seconds - offset) * segment.bpm / 60

/-- The beat at a time along segments, the first of which starts at a given time. -/
def beatOf (seconds offset : ℚ) : List (Segment ℚ) → ℚ
  | [] => 0
  | [segment] => beatIn segment offset seconds
  | segment :: next :: segments =>
    if seconds < offset + spanOf segment next.start then beatIn segment offset seconds
    else beatOf seconds (offset + spanOf segment next.start) (next :: segments)

/-- Rational segments in order, with tempos above zero. -/
structure Climbs (segments : List (Segment ℚ)) : Prop where
  /-- The tempos are above zero. -/
  bpm : ∀ segment ∈ segments, 0 < segment.bpm
  /-- The starts increase. -/
  increasing : segments.Pairwise (·.start < ·.start)

namespace Climbs

variable {segment next : Segment ℚ} {segments : List (Segment ℚ)} {beat later seconds offset : ℚ}

/-- The segments behind the first one are in order. -/
theorem tail (h : Climbs (segment :: segments)) : Climbs segments :=
  ⟨fun s hs => h.bpm s (List.mem_cons_of_mem _ hs), (List.pairwise_cons.1 h.increasing).2⟩

/-- The tempo of the first segment is above zero. -/
theorem bpm_pos (h : Climbs (segment :: segments)) : 0 < segment.bpm :=
  h.bpm segment List.mem_cons_self

/-- The second segment starts behind the first one. -/
theorem start_lt (h : Climbs (segment :: next :: segments)) : segment.start < next.start :=
  (List.pairwise_cons.1 h.increasing).1 next List.mem_cons_self

end Climbs

section Span

variable {segment : Segment ℚ} {beat later offset seconds : ℚ}

/-- A later beat is later in time. -/
theorem spanOf_lt (hbpm : 0 < segment.bpm) (h : beat < later) :
    spanOf segment beat < spanOf segment later := by
  unfold spanOf
  gcongr

/-- A segment takes no time up to its start. -/
theorem spanOf_start (segment : Segment ℚ) : spanOf segment segment.start = 0 := by
  simp [spanOf]

/-- A beat from the start of a segment on is not before the start in time. -/
theorem spanOf_nonneg (hbpm : 0 < segment.bpm) (h : segment.start ≤ beat) :
    0 ≤ spanOf segment beat := by
  unfold spanOf
  have := sub_nonneg.2 h
  positivity

/-- Inside a segment the beat at the time of a beat is that beat. -/
theorem beatIn_spanOf (hbpm : 0 < segment.bpm) :
    beatIn segment offset (offset + spanOf segment beat) = beat := by
  unfold beatIn spanOf
  field_simp
  ring

/-- Inside a segment the time of the beat at a time is that time. -/
theorem spanOf_beatIn (hbpm : 0 < segment.bpm) :
    offset + spanOf segment (beatIn segment offset seconds) = seconds := by
  unfold beatIn spanOf
  field_simp
  ring

/-- A time is before the time of a beat in a segment if its beat is before that beat. -/
theorem beatIn_lt_iff (hbpm : 0 < segment.bpm) :
    beatIn segment offset seconds < beat ↔ seconds < offset + spanOf segment beat := by
  have hseconds : offset + spanOf segment (beatIn segment offset seconds) = seconds :=
    spanOf_beatIn hbpm
  constructor
  · intro h
    have := spanOf_lt hbpm h
    linarith
  · intro h
    -- A beat that is not before would have a time that is not before either.
    by_contra! hle
    rcases hle.eq_or_lt with heq | hlt
    · rw [heq] at h
      linarith
    · have := spanOf_lt hbpm hlt
      linarith

/-- The beat at a time from the start of a segment on is not before the start. -/
theorem start_le_beatIn (hbpm : 0 < segment.bpm) (h : offset ≤ seconds) :
    segment.start ≤ beatIn segment offset seconds := by
  rw [← not_lt, beatIn_lt_iff hbpm, spanOf_start, add_zero]
  exact not_lt.2 h

end Span

namespace Climbs

variable {segment next : Segment ℚ} {segments : List (Segment ℚ)} {beat later seconds offset : ℚ}

/-- The start of the first segment has the time at which it starts. -/
theorem secondsOf_start (h : Climbs (segment :: segments)) :
    secondsOf segment.start offset (segment :: segments) = offset := by
  cases segments with
  | nil => rw [secondsOf, spanOf_start, add_zero]
  | cons next segments => rw [secondsOf, if_pos h.start_lt, spanOf_start, add_zero]

/-- A beat from the start of the first segment on does not have a time before that start. -/
theorem le_secondsOf (h : Climbs (segment :: segments)) (hbeat : segment.start ≤ beat) :
    offset ≤ secondsOf beat offset (segment :: segments) := by
  induction segments generalizing segment offset with
  | nil => exact le_add_of_nonneg_right (spanOf_nonneg h.bpm_pos hbeat)
  | cons next segments ih =>
    rw [secondsOf]
    split_ifs with hnext
    · exact le_add_of_nonneg_right (spanOf_nonneg h.bpm_pos hbeat)
    · calc offset ≤ offset + spanOf segment next.start :=
            le_add_of_nonneg_right (spanOf_nonneg h.bpm_pos h.start_lt.le)
        _ ≤ _ := ih h.tail (not_lt.1 hnext)

/-- A time from the start of the first segment on does not have a beat before that start. -/
theorem start_le_beatOf (h : Climbs (segment :: segments)) (hseconds : offset ≤ seconds) :
    segment.start ≤ beatOf seconds offset (segment :: segments) := by
  induction segments generalizing segment offset with
  | nil => exact start_le_beatIn h.bpm_pos hseconds
  | cons next segments ih =>
    rw [beatOf]
    split_ifs with hnext
    · exact start_le_beatIn h.bpm_pos hseconds
    · exact h.start_lt.le.trans (ih h.tail (not_lt.1 hnext))

/-- The beat at the time of a beat is that beat. -/
theorem beatOf_secondsOf (h : Climbs (segment :: segments)) (hbeat : segment.start ≤ beat) :
    beatOf (secondsOf beat offset (segment :: segments)) offset (segment :: segments) = beat := by
  induction segments generalizing segment offset with
  | nil => exact beatIn_spanOf h.bpm_pos
  | cons next segments ih =>
    rw [secondsOf, beatOf]
    -- The time goes up with the beat, so both walks end in the first segment or none does.
    split_ifs with hnext hbefore hbefore
    · exact beatIn_spanOf h.bpm_pos
    · exact absurd (add_lt_add_right (spanOf_lt h.bpm_pos hnext) offset) hbefore
    · exact absurd hbefore (not_lt.2 (h.tail.le_secondsOf (not_lt.1 hnext)))
    · exact ih h.tail (not_lt.1 hnext)

/-- The time of the beat at a time is that time. -/
theorem secondsOf_beatOf (h : Climbs (segment :: segments)) (hseconds : offset ≤ seconds) :
    secondsOf (beatOf seconds offset (segment :: segments)) offset (segment :: segments) =
      seconds := by
  induction segments generalizing segment offset with
  | nil => exact spanOf_beatIn h.bpm_pos
  | cons next segments ih =>
    rw [beatOf, secondsOf]
    -- The beat goes up with the time, so again both walks end in the same segment.
    split_ifs with hbefore hnext hnext
    · exact spanOf_beatIn h.bpm_pos
    · exact absurd ((beatIn_lt_iff h.bpm_pos).2 hbefore) hnext
    · exact absurd hnext (not_lt.2 (h.tail.start_le_beatOf (not_lt.1 hbefore)))
    · exact ih h.tail (not_lt.1 hbefore)

/-- A later beat has a later time. -/
theorem secondsOf_lt (h : Climbs (segment :: segments)) (hbeat : segment.start ≤ beat)
    (hlt : beat < later) :
    secondsOf beat offset (segment :: segments) < secondsOf later offset (segment :: segments) := by
  induction segments generalizing segment offset with
  | nil => exact add_lt_add_right (spanOf_lt h.bpm_pos hlt) offset
  | cons next segments ih =>
    rw [secondsOf, secondsOf]
    -- If only the earlier beat is in the first segment, the start of the next one lies in between.
    split_ifs with hnext hnextLater hnextLater
    · exact add_lt_add_right (spanOf_lt h.bpm_pos hlt) offset
    · calc offset + spanOf segment beat < offset + spanOf segment next.start :=
            add_lt_add_right (spanOf_lt h.bpm_pos hnext) offset
        _ ≤ _ := h.tail.le_secondsOf (not_lt.1 hnextLater)
    · exact absurd (hlt.trans hnextLater) hnext
    · exact ih h.tail (not_lt.1 hnext)

/-- A beat that is not earlier does not have an earlier time. -/
theorem secondsOf_mono (h : Climbs (segment :: segments)) (hbeat : segment.start ≤ beat)
    (hle : beat ≤ later) :
    secondsOf beat offset (segment :: segments) ≤ secondsOf later offset (segment :: segments) := by
  rcases hle.eq_or_lt with rfl | hlt
  · exact le_rfl
  · exact (h.secondsOf_lt hbeat hlt).le

end Climbs

/-! ## The walks of a tempo map -/

/-- A segment is the given rational one. -/
structure Segment.IsRational (segment : Segment Number) (exact : Segment ℚ) : Prop where
  /-- The start is. -/
  start : segment.start.toRat? = some exact.start
  /-- The tempo is. -/
  bpm : segment.bpm.toRat? = some exact.bpm

/-- The rational segment that a segment is. -/
def Segment.exact (segment : Segment Number) : Segment ℚ := segment.map fun x => x.toRat?.getD 0

/-- A checked segment is a rational one. -/
theorem Segment.IsChecked.isRational {ρ : Rounding} {segment : Segment Number}
    (h : segment.IsChecked ρ) : segment.IsRational segment.exact := by
  obtain ⟨p, hp⟩ := Number.exists_toRat?_of_checkFinite h.start
  obtain ⟨q, hq⟩ := Number.exists_toRat?_of_checkFinite h.bpm
  refine ⟨?_, ?_⟩
  · simp [exact, Segment.map, hp]
  · simp [exact, Segment.map, hq]

namespace TempoMap

variable {segments : List (Segment Number)} {exacts : List (Segment ℚ)} {segment : Segment Number}
  {exact : Segment ℚ} {beat offset seconds : Number} {b o t : ℚ}

/-- A span is exact. -/
theorem isExactly_span (hsegment : segment.IsRational exact) (hbpm : 0 < exact.bpm)
    (hbeat : beat.toRat? = some b) :
    IsExactly (span .exact segment.start beat segment.bpm) (spanOf exact b) :=
  (Number.isExactly_sub hbeat hsegment.start).bind fun _ hdistance =>
    (Number.isExactly_mul hdistance (Number.toRat?_int 60)).bind fun _ hproduct =>
      Number.isExactly_div hproduct hsegment.bpm hbpm.ne'

/-- The time of a beat is exact. -/
theorem isExactly_secondsFrom (hsegments : List.Forall₂ Segment.IsRational segments exacts)
    (hclimbs : Climbs exacts) (hbeat : beat.toRat? = some b) (hoffset : offset.toRat? = some o) :
    IsExactly (secondsFrom .exact beat offset segments) (secondsOf b o exacts) := by
  induction hsegments generalizing offset o with
  | nil => exact ⟨offset, rfl, hoffset⟩
  | @cons segment exact segments exacts hsegment hrest ih =>
    have hlast : IsExactly
        (span .exact segment.start beat segment.bpm >>= Number.add .exact offset)
        (o + spanOf exact b) :=
      (isExactly_span hsegment hclimbs.bpm_pos hbeat).bind fun _ hspan =>
        Number.isExactly_add hoffset hspan
    cases hrest with
    | nil => exact hlast
    | @cons next nextExact _ _ hnext _ =>
      rw [secondsFrom, secondsOf]
      by_cases hbefore : b < nextExact.start
      · rw [if_pos ((Number.lt_iff hbeat hnext.start).2 hbefore), if_pos hbefore]
        exact hlast
      · rw [if_neg (mt (Number.lt_iff hbeat hnext.start).1 hbefore), if_neg hbefore]
        exact (isExactly_span hsegment hclimbs.bpm_pos hnext.start).bind fun _ hspan =>
          (Number.isExactly_add hoffset hspan).bind fun _ hlater => ih hclimbs.tail hlater

/-- The beat at a time in a segment that starts at a given time. -/
def beatWithin (ρ : Rounding) (segment : Segment Number) (offset seconds : Number) :
    Except Fault Number := do
  let elapsed ← Number.sub ρ seconds offset
  let beats ← Number.div ρ (← Number.mul ρ elapsed segment.bpm) (.int 60)
  Number.add ρ segment.start beats

/-- The beat at a time in a segment is exact. -/
theorem isExactly_beatWithin (hsegment : segment.IsRational exact) (hoffset : offset.toRat? = some o)
    (hseconds : seconds.toRat? = some t) :
    IsExactly (beatWithin .exact segment offset seconds) (beatIn exact o t) :=
  (Number.isExactly_sub hseconds hoffset).bind fun _ helapsed =>
    (Number.isExactly_mul helapsed hsegment.bpm).bind fun _ hproduct =>
      (Number.isExactly_div hproduct (Number.toRat?_int 60) (by norm_num)).bind fun _ hbeats =>
        Number.isExactly_add hsegment.start hbeats

/-- The table of offsets goes up from the first one. -/
theorem exists_offsetsFrom (hsegments : List.Forall₂ Segment.IsRational segments exacts)
    (hclimbs : Climbs exacts) (hoffset : offset.toRat? = some o) :
    ∃ offsets, offsetsFrom .exact offset segments = .ok offsets ∧
      (∀ x ∈ offsets, ∃ q, x.toRat? = some q ∧ o ≤ q) ∧
      offsets.Pairwise fun earlier later => earlier.lt later = true := by
  induction hsegments generalizing offset o with
  | nil => exact ⟨[offset], rfl, by simp [hoffset], List.pairwise_singleton ..⟩
  | @cons segment exact segments exacts hsegment hrest ih =>
    cases hrest with
    | nil => exact ⟨[offset], rfl, by simp [hoffset], List.pairwise_singleton ..⟩
    | @cons next nextExact _ _ hnext _ =>
      obtain ⟨duration, hduration, hspan⟩ :=
        isExactly_span hsegment hclimbs.bpm_pos hnext.start
      obtain ⟨later, hlater, hsum⟩ := Number.isExactly_add hoffset hspan
      obtain ⟨offsets, hoffsets, hbehind, hincreasing⟩ := ih hclimbs.tail hsum
      -- A segment takes time, so the next offset is later.
      have hpositive : 0 < spanOf exact nextExact.start := by
        rw [← spanOf_start exact]
        exact spanOf_lt hclimbs.bpm_pos hclimbs.start_lt
      refine ⟨offset :: offsets, ?_, ?_, List.pairwise_cons.2 ⟨fun x hx => ?_, hincreasing⟩⟩
      · rw [offsetsFrom, hduration, ok_bind, hlater, ok_bind, hoffsets]
        rfl
      · refine List.forall_mem_cons.2 ⟨⟨o, hoffset, le_rfl⟩, fun x hx => ?_⟩
        obtain ⟨q, hq, hle⟩ := hbehind x hx
        exact ⟨q, hq, by linarith⟩
      · obtain ⟨q, hq, hle⟩ := hbehind x hx
        rw [Number.lt_iff hoffset hq]
        linarith

/-- The table starts with the offset of the first segment. -/
theorem exists_eq_cons_of_offsetsFrom {ρ : Rounding} {offsets : List Number}
    (h : offsetsFrom ρ offset segments = .ok offsets) : ∃ others, offsets = offset :: others := by
  match segments with
  | [] | [_] => exact ⟨[], (pure_eq_ok_iff.1 h).symm⟩
  | segment :: next :: segments =>
    obtain ⟨duration, -, h⟩ := bind_eq_ok.1 h
    obtain ⟨later, -, h⟩ := bind_eq_ok.1 h
    obtain ⟨others, -, h⟩ := bind_eq_ok.1 h
    exact ⟨others, (pure_eq_ok_iff.1 h).symm⟩

/-- The search among the offsets finds the segment in which the walk ends. -/
theorem isExactly_beatWithin_atIndex (hsegments : List.Forall₂ Segment.IsRational segments exacts)
    (hclimbs : Climbs exacts) (hne : segments ≠ []) {offsets : List Number}
    (hoffsets : offsetsFrom .exact offset segments = .ok offsets)
    (hoffset : offset.toRat? = some o) (hseconds : seconds.toRat? = some t) (h : o ≤ t) :
    let index : ℤ := (offsets.takeWhile fun x => !seconds.lt x).length - 1
    IsExactly (beatWithin .exact (atIndex segments index) (atIndex offsets index) seconds)
      (beatOf t o exacts) := by
  -- The first offset is not after the time, and so the search ends behind it.
  induction hsegments generalizing offset o offsets with
  | nil => exact absurd rfl hne
  | @cons segment exact segments exacts hsegment hrest ih =>
    have hfirst : (!seconds.lt offset) = true := by
      rw [Bool.not_eq_true', ← Bool.not_eq_true, Number.lt_iff hseconds hoffset]
      exact not_lt.2 h
    have hlast := isExactly_beatWithin hsegment hoffset hseconds
    cases hrest with
    | nil =>
      obtain rfl := pure_eq_ok_iff.1 hoffsets
      dsimp only
      rwa [atIndex_takeWhile_singleton hfirst (by simp),
        atIndex_takeWhile_singleton hfirst (by simp)]
    | @cons next nextExact nexts nextExacts hnext hnexts =>
      obtain ⟨duration, hduration, hspan⟩ :=
        isExactly_span hsegment hclimbs.bpm_pos hnext.start
      obtain ⟨later, hlater, hsum⟩ := Number.isExactly_add hoffset hspan
      rw [offsetsFrom, hduration, ok_bind, hlater, ok_bind] at hoffsets
      obtain ⟨rest, hrest, hoffsets⟩ := bind_eq_ok.1 hoffsets
      obtain rfl := pure_eq_ok_iff.1 hoffsets
      obtain ⟨others, rfl⟩ := exists_eq_cons_of_offsetsFrom hrest
      dsimp only
      rw [beatOf]
      -- The walk ends in the first segment exactly if the search ends at the first offset.
      by_cases hbefore : t < o + spanOf exact nextExact.start
      · have hhead : ∀ x ∈ (later :: others).head?, (!seconds.lt x) = false := by
          rintro x ⟨⟩
          simpa using (Number.lt_iff hseconds hsum).2 hbefore
        rw [atIndex_takeWhile_singleton hfirst hhead, atIndex_takeWhile_singleton hfirst hhead,
          if_pos hbefore]
        exact hlast
      · have hsecond : (!seconds.lt later) = true := by
          rw [Bool.not_eq_true', ← Bool.not_eq_true, Number.lt_iff hseconds hsum]
          exact hbefore
        rw [atIndex_takeWhile_cons _ hfirst hsecond, atIndex_takeWhile_cons _ hfirst hsecond,
          if_neg hbefore]
        exact ih hclimbs.tail (by simp) hrest hsum (not_lt.1 hbefore)

/-- The segments of a tempo map are rational ones. -/
theorem IsValid.isRational_exact {ρ : Rounding} (h : IsValid ρ segments) :
    List.Forall₂ Segment.IsRational segments (segments.map Segment.exact) :=
  List.forall₂_map_right_iff.2 (List.forall₂_same.2 fun segment hsegment =>
    (h.checked segment hsegment).isRational)

/-- The starts of a tempo map have rationals. -/
theorem IsValid.toRat?_start {ρ : Rounding} (h : IsValid ρ segments) :
    ∀ segment ∈ segments, segment.start.toRat? = some segment.exact.start :=
  fun segment hsegment => (h.checked segment hsegment).isRational.start

/-- The rational segments of a tempo map climb. -/
theorem IsValid.climbs_exact {ρ : Rounding} (h : IsValid ρ segments) :
    Climbs (segments.map Segment.exact) := by
  have hrational : ∀ segment ∈ segments, segment.IsRational segment.exact :=
    fun segment hsegment => (h.checked segment hsegment).isRational
  refine ⟨List.forall_mem_map.2 fun segment hsegment => ?_, List.pairwise_map.2 ?_⟩
  · exact (Number.isPositive_iff (hrational segment hsegment).bpm).1
      (h.checked segment hsegment).isPositive
  · exact h.increasing.imp_of_mem fun hearlier hlater hlt =>
      (Number.lt_iff (hrational _ hearlier).start (hrational _ hlater).start).1 hlt

/-- The first rational segment of a tempo map starts at beat zero. -/
theorem IsValid.exists_exact_eq_cons {ρ : Rounding} (h : IsValid ρ segments) :
    ∃ first rest, segments.map Segment.exact = first :: rest ∧ first.start = 0 := by
  obtain ⟨segment, rest, rfl, hzero⟩ := h.ascending.first
  refine ⟨segment.exact, rest.map Segment.exact, rfl, ?_⟩
  simp [Segment.exact, Segment.map, hzero]

/-- The segments of a tempo map are rational ones in order from beat zero on. -/
theorem IsValid.exists_isRational {ρ : Rounding} (h : IsValid ρ segments) :
    ∃ first rest, List.Forall₂ Segment.IsRational segments (first :: rest) ∧
      Climbs (first :: rest) ∧ first.start = 0 := by
  obtain ⟨first, rest, hexacts, hzero⟩ := h.exists_exact_eq_cons
  exact ⟨first, rest, hexacts ▸ h.isRational_exact, hexacts ▸ h.climbs_exact, hzero⟩

/-! ## Runs -/

section Runs

variable {map : TempoMap}

/-- The first segment starts at time zero. -/
theorem toRat?_zeroOffset : (Number.real (.finite 0)).toRat? = some 0 := rfl

/-- The time of a beat is the one that the walk adds up. -/
theorem run_secondsAt_exact (hmap : IsOf .exact segments map) (hvalid : IsValid .exact segments)
    (hsegments : List.Forall₂ Segment.IsRational segments exacts) (hclimbs : Climbs exacts)
    (hbeat : beat.toRat? = some b) (hb : 0 ≤ b) :
    ∃ seconds map', IsOf .exact segments map' ∧
      (secondsAt .exact beat).run.run map = (.ok seconds, map') ∧
      seconds.toRat? = some (secondsOf b 0 exacts) := by
  obtain ⟨map', hmap', hrun⟩ := run_secondsAt hmap hvalid.ascending hbeat hb
  obtain ⟨offsets, hoffsets, -⟩ := exists_offsetsFrom hsegments hclimbs toRat?_zeroOffset
  obtain ⟨seconds, hseconds, hvalue⟩ :=
    isExactly_secondsFrom hsegments hclimbs hbeat toRat?_zeroOffset
  refine ⟨seconds, map', hmap', ?_, hvalue⟩
  rw [hrun, timeOf, computeOffsets, hoffsets, ok_bind, hseconds]

/-- The times of a tempo map start at zero and do not go back. -/
theorem exists_clock (hmap : IsOf .exact segments map) (hvalid : IsValid .exact segments) :
    ∃ clock : ℚ → ℚ, clock 0 = 0 ∧ MonotoneOn clock (Set.Ici 0) ∧
      ∀ (beat : Number) (b : ℚ), beat.toRat? = some b → 0 ≤ b →
        IsExactly (answerOf (secondsAt .exact beat) map) (clock b) := by
  obtain ⟨first, rest, hrational, hclimbs, hzero⟩ := hvalid.exists_isRational
  refine ⟨fun b => secondsOf b 0 (first :: rest), hzero ▸ hclimbs.secondsOf_start,
    fun b hb c _ hle => hclimbs.secondsOf_mono (hzero.trans_le hb) hle, fun beat b hbeat hb => ?_⟩
  obtain ⟨seconds, map', -, hrun, hseconds⟩ :=
    run_secondsAt_exact hmap hvalid hrational hclimbs hbeat hb
  exact ⟨seconds, by rw [answerOf, hrun], hseconds⟩

/-- The beat at a time is the one that the walk finds. -/
theorem run_beatAt_exact (hmap : IsOf .exact segments map)
    (hsegments : List.Forall₂ Segment.IsRational segments exacts) (hclimbs : Climbs exacts)
    (hne : segments ≠ []) (hseconds : seconds.toRat? = some t) (ht : 0 ≤ t) :
    ∃ beat map', IsOf .exact segments map' ∧
      (beatAt .exact seconds).run.run map = (.ok beat, map') ∧
      beat.toRat? = some (beatOf t 0 exacts) := by
  obtain ⟨map', hmap', htable⟩ := run_offsetTable hmap
  obtain ⟨offsets, hoffsets, hfinite, hincreasing⟩ :=
    exists_offsetsFrom hsegments hclimbs toRat?_zeroOffset
  obtain ⟨beat, hbeat, hvalue⟩ :=
    isExactly_beatWithin_atIndex hsegments hclimbs hne hoffsets toRat?_zeroOffset hseconds ht
  refine ⟨beat, map', hmap', ?_, hvalue⟩
  have hnegative : ¬seconds.isNegative = true := by
    rw [Number.isNegative_iff hseconds]
    exact not_lt.2 ht
  have hindex := indexIn_eq (fun x hx => (hfinite x hx).imp fun _ h => h.1) hincreasing hseconds
  unfold beatAt
  rw [if_neg hnegative, TempoM.run_bind, htable, computeOffsets, hoffsets]
  dsimp only
  rw [TempoM.run_bind, TempoM.run_get]
  dsimp only
  rw [TempoM.run_lift, hmap'.segments_eq, hindex]
  exact congrArg (·, map') hbeat

end Runs

/-- With exact arithmetic the beat at the time of a beat is that beat, and the time of the beat at a
time is that time; beat zero is at time zero, and a later beat has a later time. -/
theorem beatAt_secondsAt_exact {given : List (Segment Value)} {map : TempoMap}
    (h : ofSegments .exact given = .ok map) :
    (∀ beat b, beat.toRat? = some b → 0 ≤ b →
      IsExactly (answerOf (secondsAt .exact beat >>= beatAt .exact) map) b) ∧
    (∀ seconds t, seconds.toRat? = some t → 0 ≤ t →
      IsExactly (answerOf (beatAt .exact seconds >>= secondsAt .exact) map) t) ∧
    (∀ zero, zero.toRat? = some 0 → IsExactly (answerOf (secondsAt .exact zero) map) 0) ∧
    ∀ beat later b c, beat.toRat? = some b → later.toRat? = some c → 0 ≤ b → b < c →
      ∃ t u, IsExactly (answerOf (secondsAt .exact beat) map) t ∧
        IsExactly (answerOf (secondsAt .exact later) map) u ∧ t < u := by
  -- The map is one of rational segments, and each part is a fact about the walks along them.
  obtain ⟨segments, -, hvalid, rfl⟩ := ofSegments_eq_ok_iff.1 h
  obtain ⟨first, rest, hsegments, hclimbs, hzero⟩ := hvalid.exists_isRational
  have hmap := isOf_fresh .exact segments
  have hne : segments ≠ [] := by
    rintro rfl
    cases hsegments
  refine ⟨fun beat b hbeat hb => ?_, fun seconds t hseconds ht => ?_, fun zero hbeat => ?_,
    fun beat later b c hbeat hlater hb hlt => ?_⟩
  · obtain ⟨seconds, map', hmap', hrun, hseconds⟩ :=
      run_secondsAt_exact hmap hvalid hsegments hclimbs hbeat hb
    have hnonneg : 0 ≤ secondsOf b 0 (first :: rest) := hclimbs.le_secondsOf (hzero.trans_le hb)
    obtain ⟨found, map'', -, hrun', hfound⟩ :=
      run_beatAt_exact hmap' hsegments hclimbs hne hseconds hnonneg
    rw [hclimbs.beatOf_secondsOf (hzero.trans_le hb)] at hfound
    exact ⟨found, by rw [answerOf_bind hrun, answerOf, hrun'], hfound⟩
  · obtain ⟨beat, map', hmap', hrun, hbeat⟩ :=
      run_beatAt_exact hmap hsegments hclimbs hne hseconds ht
    have hnonneg : 0 ≤ beatOf t 0 (first :: rest) := hzero.symm.trans_le (hclimbs.start_le_beatOf ht)
    obtain ⟨found, map'', -, hrun', hfound⟩ :=
      run_secondsAt_exact hmap' hvalid hsegments hclimbs hbeat hnonneg
    rw [hclimbs.secondsOf_beatOf ht] at hfound
    exact ⟨found, by rw [answerOf_bind hrun, answerOf, hrun'], hfound⟩
  · obtain ⟨seconds, map', -, hrun, hseconds⟩ :=
      run_secondsAt_exact hmap hvalid hsegments hclimbs hbeat le_rfl
    have hstart : secondsOf 0 0 (first :: rest) = 0 := hzero ▸ hclimbs.secondsOf_start
    rw [hstart] at hseconds
    exact ⟨seconds, by rw [answerOf, hrun], hseconds⟩
  · obtain ⟨t, _, -, hrun, ht⟩ := run_secondsAt_exact hmap hvalid hsegments hclimbs hbeat hb
    obtain ⟨u, _, -, hrun', hu⟩ :=
      run_secondsAt_exact hmap hvalid hsegments hclimbs hlater (hb.trans hlt.le)
    exact ⟨_, _, ⟨t, by rw [answerOf, hrun], ht⟩, ⟨u, by rw [answerOf, hrun'], hu⟩,
      hclimbs.secondsOf_lt (hzero.trans_le hb) hlt⟩

/-- Beat 20 and second 8 are found again on the map of two tempos, and the first beat of the second
tempo is later than the one before it. -/
theorem beatAt_secondsAt_exact_twoTempos :
    ofSegments .exact [⟨.int 0, .int 120⟩, ⟨.int 16, .int 90⟩] = .ok twoTempos ∧
      IsExactly (answerOf (secondsAt .exact (.int 20) >>= beatAt .exact) twoTempos) 20 ∧
      IsExactly (answerOf (beatAt .exact (.int 8) >>= secondsAt .exact) twoTempos) 8 ∧
      ∃ t u, IsExactly (answerOf (secondsAt .exact (.int 15)) twoTempos) t ∧
        IsExactly (answerOf (secondsAt .exact (.int 16)) twoTempos) u ∧ t < u := by
  have hmap : ofSegments .exact [⟨.int 0, .int 120⟩, ⟨.int 16, .int 90⟩] = .ok twoTempos := by
    decide +kernel
  obtain ⟨hbeat, hseconds, -, hlater⟩ := beatAt_secondsAt_exact hmap
  exact ⟨hmap, hbeat _ _ rfl (by norm_num), hseconds _ _ rfl (by norm_num),
    hlater _ _ 15 16 rfl rfl (by norm_num) (by norm_num)⟩

end TempoMap

end CueSheet
