import Mathlib.Algebra.BigOperators.Fin
import CueSheet.Proofs.Agree
import CueSheet.Proofs.Tempo.Edit
import CueSheet.Proofs.Tempo.Inverse

/-!
# The time of a beat is the integral of the tempo

With exact arithmetic the time of a beat is the sum over all segments of what of each lies in front
of the beat, at its tempo (`TempoMap.secondsAt_eq_integral`). The sum does not search: segments
behind the beat add nothing to it, and those in front of it add all they have. A segment that is cut
in two with one tempo adds what it added before, and so a change to the tempo that is in force
anyway cannot be told from the answers.
-/

namespace CueSheet

/-! ## The sum over segments -/

/-- Where a segment ends for a beat: at the start of the next segment, or at the beat if there is no
next one. -/
def endFor (segments : List (Segment ℚ)) (beat : ℚ) (i : ℕ) : ℚ :=
  (segments[i + 1]?.map (·.start)).getD beat

/-- The time of a beat as a sum over all segments: of each segment, what of it is in front of the
beat, at its tempo. -/
def integral (segments : List (Segment ℚ)) (beat : ℚ) : ℚ :=
  ∑ i : Fin segments.length,
    max 0 (min beat (endFor segments beat i) - segments[i].start) * 60 / segments[i].bpm

/-- The segment at an index is the last one that does not start after a beat. -/
def IsLastAt (segments : List (Segment ℚ)) (beat : ℚ) (i : ℕ) : Prop :=
  ∃ h : i < segments.length, segments[i].start ≤ beat ∧
    ∀ (j : ℕ) (hj : j < segments.length), i < j → beat < segments[j].start

section Integral

variable {segment : Segment ℚ} {segments front back : List (Segment ℚ)} {beat s : ℚ}

/-- What a first segment adds to the sum is its part up to its end. -/
theorem integral_cons (segment : Segment ℚ) (segments : List (Segment ℚ)) (beat : ℚ) :
    integral (segment :: segments) beat =
      max 0 (min beat ((segments.head?.map (·.start)).getD beat) - segment.start) * 60 /
        segment.bpm + integral segments beat := by
  refine (Fin.sum_univ_succ (n := segments.length) _).trans (congrArg₂ (· + ·) ?_ rfl)
  cases segments <;> rfl

/-- Segments that start behind a beat add nothing. -/
theorem integral_eq_zero (h : ∀ segment ∈ segments, beat < segment.start) :
    integral segments beat = 0 := by
  refine Finset.sum_eq_zero fun i _ => ?_
  have hbehind : beat < segments[i].start := h _ (List.getElem_mem _)
  have hnone : min beat (endFor segments beat i) - segments[i].start ≤ 0 := by
    linarith [min_le_left beat (endFor segments beat i)]
  rw [max_eq_left hnone, zero_mul, zero_div]

/-- The time of a beat along segments is that of the start of the first one and the sum. -/
theorem Climbs.secondsOf_eq_integral (h : Climbs (segment :: segments))
    (hbeat : segment.start ≤ beat) (offset : ℚ) :
    secondsOf beat offset (segment :: segments) = offset + integral (segment :: segments) beat := by
  induction segments generalizing segment offset with
  | nil =>
    rw [secondsOf, integral_cons, integral_eq_zero (List.forall_mem_nil _), add_zero]
    simp [spanOf, sub_nonneg.2 hbeat]
  | cons next segments ih =>
    rw [secondsOf, integral_cons]
    split_ifs with hnext
    · -- All segments behind the first one start behind the beat.
      have hbehind : ∀ later ∈ next :: segments, beat < later.start :=
        List.forall_mem_cons.2 ⟨hnext, fun later hlater =>
          hnext.trans ((List.pairwise_cons.1 h.tail.increasing).1 later hlater)⟩
      rw [integral_eq_zero hbehind, add_zero]
      simp [spanOf, sub_nonneg.2 hbeat, min_eq_left hnext.le]
    · rw [ih h.tail (not_lt.1 hnext), add_assoc]
      simp [spanOf, sub_nonneg.2 h.start_lt.le, min_eq_right (not_lt.1 hnext)]

/-- A part up to a point and the part from there on make up the whole. -/
theorem max_split {a s b c : ℚ} (has : a ≤ s) (hsc : s ≤ c) :
    max 0 (min b s - a) + max 0 (min b c - s) = max 0 (min b c - a) := by
  rcases le_total b s with hb | hb
  · rw [min_eq_left hb, min_eq_left (hb.trans hsc), max_eq_left (sub_nonpos.2 hb), add_zero]
  · have hmin : s ≤ min b c := le_min hb hsc
    rw [min_eq_right hb, max_eq_right (sub_nonneg.2 has), max_eq_right (sub_nonneg.2 hmin),
      max_eq_right (sub_nonneg.2 (has.trans hmin))]
    ring

/-- What segments in front of a segment add to the sum does not depend on those behind it. -/
theorem exists_integral_append (front : List (Segment ℚ)) (segment : Segment ℚ) (beat : ℚ) :
    ∃ c, ∀ back, integral (front ++ segment :: back) beat = c + integral (segment :: back) beat := by
  induction front with
  | nil => exact ⟨0, fun back => (zero_add _).symm⟩
  | cons first front ih =>
    obtain ⟨c, hc⟩ := ih
    -- The first segment ends where the next one starts, which is in front of the given one or is it.
    have hend (back : List (Segment ℚ)) :
        (front ++ segment :: back).head? = (front ++ [segment]).head? := by
      cases front <;> rfl
    refine ⟨max 0 (min beat (((front ++ [segment]).head?.map (·.start)).getD beat) - first.start) *
      60 / first.bpm + c, fun back => ?_⟩
    rw [List.cons_append, integral_cons, hc, hend, add_assoc]

/-- A change to the tempo in force, inside a segment or behind the last one, leaves the sum. -/
theorem integral_insert (hstart : segment.start ≤ s) (hback : ∀ next ∈ back.head?, s ≤ next.start) :
    integral (front ++ segment :: ⟨s, segment.bpm⟩ :: back) beat =
      integral (front ++ segment :: back) beat := by
  obtain ⟨c, hc⟩ := exists_integral_append front segment beat
  rw [hc, hc, add_right_inj]
  simp only [integral_cons, List.head?_cons, Option.map_some, Option.getD_some]
  rw [← add_assoc, ← add_div, ← add_mul]
  congr 4
  cases back with
  | nil =>
    rcases le_total beat s with hb | hb
    · simp [min_eq_left hb, sub_nonpos.2 hb]
    · exact max_split hstart hb
  | cons next back => exact max_split hstart (hback next rfl)

/-- Segments along which all beats have the same times have the same beats at all times. -/
theorem Climbs.beatOf_congr {other : Segment ℚ} {others : List (Segment ℚ)} {seconds offset : ℚ}
    (h : Climbs (segment :: segments)) (h' : Climbs (other :: others))
    (hstart : segment.start = other.start) (hseconds : offset ≤ seconds)
    (hsame : ∀ beat, segment.start ≤ beat →
      secondsOf beat offset (segment :: segments) = secondsOf beat offset (other :: others)) :
    beatOf seconds offset (segment :: segments) = beatOf seconds offset (other :: others) := by
  have hbeat : segment.start ≤ beatOf seconds offset (segment :: segments) :=
    h.start_le_beatOf hseconds
  calc beatOf seconds offset (segment :: segments)
      = beatOf (secondsOf (beatOf seconds offset (segment :: segments)) offset (other :: others))
          offset (other :: others) := (h'.beatOf_secondsOf (hstart ▸ hbeat)).symm
    _ = beatOf seconds offset (other :: others) := by
      rw [← hsame _ hbeat, h.secondsOf_beatOf hseconds]

end Integral

/-- Every quantity with a rational is found to be finite. -/
theorem Number.checkFinite_exact {x : Number} {q : ℚ} (h : x.toRat? = some q) :
    x.checkFinite .exact = .ok true := by
  obtain ⟨r, hr, hrq⟩ := Number.exists_toReal_exact h
  rw [Number.checkFinite, hr, ok_bind, (Extended.isFinite_iff_toRat? r).2 ⟨q, hrq⟩]
  rfl

namespace TempoMap

variable {ρ : Rounding} {segments : List (Segment Number)} {map : TempoMap} {beat : Number} {b : ℚ}

/-- The index of a beat is that of the last segment that does not start after it. -/
theorem exists_indexAt (hmap : IsOf ρ segments map) (hvalid : IsValid ρ segments)
    (hbeat : beat.toRat? = some b) (hb : 0 ≤ b) :
    ∃ i : ℕ, map.indexAt beat = .ok i ∧ IsLastAt (segments.map Segment.exact) b i := by
  have hstart := hvalid.toRat?_start
  have hbefore : ∀ segment ∈ segments,
      (!beat.lt segment.start) = true ↔ segment.exact.start ≤ b := by
    intro segment hsegment
    rw [Bool.not_eq_true', ← Bool.not_eq_true, Number.lt_iff hbeat (hstart segment hsegment),
      not_lt]
  obtain ⟨hfront, hback⟩ := boundary_getElem (pairwise_not_lt
    (List.forall_mem_map.2 hvalid.ascending.finite) (List.pairwise_map.2 hvalid.increasing) hbeat)
  have hlength := boundary_le_length (fun start => !beat.lt start) (segments.map (·.start))
  have hnegative : beat.isNegative = false := by
    rw [← Bool.not_eq_true, Number.isNegative_iff hbeat, not_lt]
    exact hb
  unfold indexAt indexIn
  rw [hmap.starts_eq, hnegative]
  generalize boundary (fun start => !beat.lt start) (segments.map (·.start)) = k at *
  simp only [List.length_map, List.getElem_map] at hfront hback hlength
  -- The first segment starts at beat zero, so the search does not end in front of it.
  obtain ⟨first, rest, hsegments, hzero⟩ := hvalid.ascending.first
  have hpos : 0 < k := by
    by_contra! hnone
    have hfirst := hback 0 (by simp [hsegments]) hnone
    rw [← Bool.not_eq_true, hbefore _ (List.getElem_mem _)] at hfirst
    simp [hsegments, Segment.exact, Segment.map, hzero, hb] at hfirst
  have hlast : k - 1 < segments.length := by omega
  refine ⟨k - 1, ?_, by rwa [List.length_map], ?_, fun j hj hlt => ?_⟩
  · rw [Nat.cast_sub hpos, Nat.cast_one]
    rfl
  · rw [List.getElem_map]
    exact (hbefore _ (List.getElem_mem hlast)).1 (hfront _ hlast (by omega))
  · have hbehind := hback j (by simpa using hj) (by omega)
    rw [← Bool.not_eq_true, hbefore _ (List.getElem_mem _), not_le] at hbehind
    rwa [List.getElem_map]

/-- The segment of a beat is the last one that does not start after it. -/
theorem segmentAt_eq {front back : List (Segment Number)} {segment : Segment Number}
    (horder : Ascending (front ++ segment :: back)) (hbeat : beat.toRat? = some b) (hb : 0 ≤ b)
    (hfront : ∀ earlier ∈ front ++ [segment], beat.lt earlier.start = false)
    (hback : ∀ next ∈ back.head?, beat.lt next.start = true) :
    (fresh (front ++ segment :: back)).segmentAt beat = .ok segment := by
  have hbefore : ∀ start ∈ (front ++ [segment]).map (·.start), (!beat.lt start) = true :=
    List.forall_mem_map.2 fun earlier hearlier => by simpa using hfront earlier hearlier
  have hbehind : (back.map (·.start)).takeWhile (fun start => !beat.lt start) = [] := by
    cases back with
    | nil => rfl
    | cons next back => exact List.takeWhile_cons_of_neg (by simp [hback next rfl])
  have hindex := indexAt_eq (isOf_fresh .exact _) horder hbeat hb
  rw [List.append_cons, List.map_append, List.takeWhile_append_of_pos hbefore, hbehind] at hindex
  rw [segmentAt, List.append_cons, hindex]
  simp [atIndex, fresh]

/-- A beat at which no segment starts is behind the start of some segment and in front of the start
of the next one. -/
theorem exists_split (hvalid : IsValid ρ segments) (hbeat : beat.toRat? = some b) (hb : 0 ≤ b)
    (hfree : ∀ segment ∈ segments, segment.exact.start ≠ b) :
    ∃ front segment back, segments = front ++ segment :: back ∧
      boundary (·.lt beat) (segments.map (·.start)) = (front ++ [segment]).length ∧
      (∀ earlier ∈ front ++ [segment], earlier.exact.start < b) ∧
      ∀ next ∈ back.head?, b < next.exact.start := by
  have hrational := hvalid.toRat?_start
  obtain ⟨before, back, rfl, hindex, hbefore, hback⟩ := hvalid.ascending.boundary_splits hbeat
  -- No segment starts there, so the first one that does not start before it starts after it.
  have hnext : ∀ next ∈ back.head?, b < next.exact.start := by
    intro next hhead
    have hmem : next ∈ before ++ back := List.mem_append_right _ (List.mem_of_mem_head? hhead)
    have hnot := hback next hhead
    rw [← Bool.not_eq_true, Number.lt_iff (hrational next hmem) hbeat, not_lt] at hnot
    exact lt_of_le_of_ne hnot (hfree next hmem).symm
  have hbefore' : ∀ earlier ∈ before, earlier.exact.start < b := fun earlier hearlier =>
    (Number.lt_iff (hrational earlier (List.mem_append_left _ hearlier)) hbeat).1
      (hbefore earlier hearlier)
  -- The first segment starts at beat zero, so there is one that starts before it.
  rcases List.eq_nil_or_concat' before with rfl | ⟨front, segment, rfl⟩
  · obtain ⟨first, rest, hexacts, hzero⟩ := hvalid.exists_exact_eq_cons
    obtain ⟨first, rest, rfl, rfl, -⟩ := List.map_eq_cons_iff.1 hexacts
    exact absurd (hzero ▸ hnext first rfl) (not_lt.2 hb)
  · exact ⟨front, segment, back, List.append_cons .. |>.symm, hindex, hbefore', hnext⟩

/-- The segment that a free beat is inside of is the one that holds it, and a segment with its tempo
can be added there. -/
theorem exists_insert (hvalid : IsValid .exact segments) (hbeat : beat.toRat? = some b) (hb : 0 ≤ b)
    (hfree : ∀ segment ∈ segments, segment.exact.start ≠ b) :
    ∃ front segment back, segments = front ++ segment :: back ∧
      (fresh segments).segmentAt beat = .ok segment ∧
      add .exact (fresh segments) ⟨.number beat, .number segment.bpm⟩ =
        .ok (fresh (front ++ segment :: ⟨beat, segment.bpm⟩ :: back)) ∧
      IsValid .exact (front ++ segment :: ⟨beat, segment.bpm⟩ :: back) ∧
      segment.exact.start < b ∧ ∀ next ∈ back.head?, b < next.exact.start := by
  have hrational := hvalid.toRat?_start
  obtain ⟨front, segment, back, rfl, hindex, hfront, hback⟩ := exists_split hvalid hbeat hb hfree
  rw [List.append_cons] at hrational
  have hnegative : beat.isNegative = false := by
    rw [← Bool.not_eq_true, Number.isNegative_iff hbeat, not_lt]
    exact hb
  have hsegment : (fresh (front ++ segment :: back)).segmentAt beat = .ok segment := by
    refine segmentAt_eq hvalid.ascending hbeat hb (fun earlier hearlier => ?_) fun next hhead => ?_
    · rw [← Bool.not_eq_true, Number.lt_iff hbeat (hrational _ (List.mem_append_left _ hearlier))]
      exact (hfront earlier hearlier).not_gt
    · have hmem := List.mem_append_right (front ++ [segment]) (List.mem_of_mem_head? hhead)
      exact (Number.lt_iff hbeat (hrational next hmem)).2 (hback next hhead)
  -- The search for the place ends behind the segment, where no segment starts at the beat.
  have hplace : IsFree (front ++ segment :: back) beat := by
    rw [IsFree, hindex, List.append_cons, List.map_append, List.getElem?_append_right (by simp)]
    cases back with
    | nil => simp
    | cons next back =>
      have hne : next.start.eq beat = false := by
        rw [← Bool.not_eq_true, Number.eq_iff (hrational next (by simp)) hbeat]
        exact (hback next rfl).ne'
      simpa using hne
  have hchecked := hvalid.checked segment (by simp)
  have hadded : Segment.IsChecked .exact ⟨beat, segment.bpm⟩ :=
    ⟨Number.checkFinite_exact hbeat, hchecked.isPositive, hchecked.bpm⟩
  have hinsert : (front ++ segment :: back).insertIdx (boundary (·.lt beat)
      ((front ++ segment :: back).map (·.start))) ⟨beat, segment.bpm⟩ =
        front ++ segment :: ⟨beat, segment.bpm⟩ :: back := by
    rw [hindex, List.append_cons, insertIdx_length_append, ← List.append_cons]
  refine ⟨front, segment, back, rfl, hsegment, ?_, ?_, hfront segment (by simp), hback⟩
  · rw [← hinsert]
    exact add_fresh hadded hnegative hplace
  · rw [← hinsert]
    exact hvalid.insertIdx hadded hnegative hplace

/-- Two answers are equal quantities, or the same fault. -/
def SameAnswer (answer answer' : Except Fault Number) : Prop :=
  Agree Eq (fun x y => x.eq y = true) answer answer'

/-- A beat before beat zero has no time, for the same reason on all maps. -/
theorem exists_fault_secondsAt (hbeat : beat.isNegative = true) :
    ∃ fault, ∀ map, answerOf (secondsAt ρ beat) map = .error fault := by
  have hindex (map : TempoMap) :
      map.indexAt beat = beat.shown >>= fun shown => throw (.beatBeforeStart shown) := by
    rw [indexAt, if_pos hbeat]
    cases beat.shown <;> rfl
  have hanswer (map : TempoMap) {fault : Fault} (hfault : map.indexAt beat = .error fault) :
      answerOf (secondsAt ρ beat) map = .error fault := by
    rw [answerOf, secondsAt, TempoM.run_bind, TempoM.run_get]
    dsimp only
    rw [TempoM.run_bind, TempoM.run_lift, hfault]
  cases hshown : beat.shown with
  | error fault => exact ⟨fault, fun map => hanswer map (by rw [hindex, hshown, error_bind])⟩
  | ok shown => exact ⟨_, fun map => hanswer map (by rw [hindex, hshown, ok_bind]; rfl)⟩

/-- A time before time zero has no beat, for the same reason on all maps. -/
theorem exists_fault_beatAt {seconds : Number} (hseconds : seconds.isNegative = true) :
    ∃ fault, ∀ map, answerOf (beatAt ρ seconds) map = .error fault := by
  unfold answerOf beatAt
  rw [if_pos hseconds]
  cases hshown : seconds.shown with
  | error fault => exact ⟨fault, fun map => by rw [TempoM.run_bind, TempoM.run_lift]; rfl⟩
  | ok shown => exact ⟨_, fun map => by rw [TempoM.run_bind, TempoM.run_lift]; rfl⟩

/-- The time of a beat is the sum over the rational segments. -/
theorem isExactly_secondsAt (hmap : IsOf .exact segments map) (hvalid : IsValid .exact segments)
    (hbeat : beat.toRat? = some b) (hb : 0 ≤ b) :
    IsExactly (answerOf (secondsAt .exact beat) map) (integral (segments.map Segment.exact) b) := by
  obtain ⟨seconds, _, -, hrun, hseconds⟩ :=
    run_secondsAt_exact hmap hvalid hvalid.isRational_exact hvalid.climbs_exact hbeat hb
  obtain ⟨first, rest, hexacts, hzero⟩ := hvalid.exists_exact_eq_cons
  have hclimbs := hvalid.climbs_exact
  rw [hexacts] at hclimbs hseconds ⊢
  rw [hclimbs.secondsOf_eq_integral (hzero.trans_le hb), zero_add] at hseconds
  exact ⟨seconds, by rw [answerOf, hrun], hseconds⟩

section SameIntegral

variable {others : List (Segment Number)} {x : Number} {q : ℚ} (hvalid : IsValid .exact segments)
  (hvalid' : IsValid .exact others)
  (hsame : ∀ q, integral (segments.map Segment.exact) q = integral (others.map Segment.exact) q)

include hvalid hvalid' hsame

/-- Tempo maps with the same sums have the same time for a beat. -/
theorem agree_secondsAt_of_integral_eq (hx : x.toRat? = some q) (hq : 0 ≤ q) :
    SameAnswer (answerOf (secondsAt .exact x) (fresh segments))
      (answerOf (secondsAt .exact x) (fresh others)) := by
  obtain ⟨t, ht, htime⟩ := isExactly_secondsAt (isOf_fresh .exact segments) hvalid hx hq
  obtain ⟨u, hu, htime'⟩ := isExactly_secondsAt (isOf_fresh .exact others) hvalid' hx hq
  rw [ht, hu]
  exact .ok ((Number.eq_iff htime htime').2 (hsame q))

/-- Tempo maps with the same sums have the same beat for a time. -/
theorem agree_beatAt_of_integral_eq (hx : x.toRat? = some q) (hq : 0 ≤ q) :
    SameAnswer (answerOf (beatAt .exact x) (fresh segments))
      (answerOf (beatAt .exact x) (fresh others)) := by
  obtain ⟨first, rest, hexacts, hzero⟩ := hvalid.exists_exact_eq_cons
  obtain ⟨other, rest', hexacts', hzero'⟩ := hvalid'.exists_exact_eq_cons
  have hne : segments ≠ [] := by
    rintro rfl
    cases hexacts
  have hne' : others ≠ [] := by
    rintro rfl
    cases hexacts'
  obtain ⟨t, _, -, hrun, hbeat⟩ := run_beatAt_exact (isOf_fresh .exact segments)
    hvalid.isRational_exact hvalid.climbs_exact hne hx hq
  obtain ⟨u, _, -, hrun', hbeat'⟩ := run_beatAt_exact (isOf_fresh .exact others)
    hvalid'.isRational_exact hvalid'.climbs_exact hne' hx hq
  have hclimbs := hvalid.climbs_exact
  have hclimbs' := hvalid'.climbs_exact
  rw [hexacts] at hclimbs hbeat hsame
  rw [hexacts'] at hclimbs' hbeat' hsame
  unfold answerOf
  rw [hrun, hrun']
  have hstart : first.start = other.start := hzero.trans hzero'.symm
  -- The beat is where the time of a walk is reached, and this time is the integral.
  refine .ok ((Number.eq_iff hbeat hbeat').2
    (hclimbs.beatOf_congr hclimbs' hstart hq fun beat hle => ?_))
  rw [hclimbs.secondsOf_eq_integral hle, hsame, hclimbs'.secondsOf_eq_integral]
  exact hstart.symm.trans_le hle

/-- Tempo maps with the same sums answer alike, also to what is before the start. -/
theorem agree_of_integral_eq (hx : x.toRat? = some q) :
    SameAnswer (answerOf (secondsAt .exact x) (fresh segments))
        (answerOf (secondsAt .exact x) (fresh others)) ∧
      SameAnswer (answerOf (beatAt .exact x) (fresh segments))
        (answerOf (beatAt .exact x) (fresh others)) := by
  by_cases hnegative : x.isNegative = true
  · obtain ⟨fault, hfault⟩ := exists_fault_secondsAt (ρ := .exact) hnegative
    obtain ⟨fault', hfault'⟩ := exists_fault_beatAt (ρ := .exact) hnegative
    rw [hfault, hfault, hfault', hfault']
    exact ⟨.fault rfl, .fault rfl⟩
  · have hq : 0 ≤ q := not_lt.1 (mt (Number.isNegative_iff hx).2 hnegative)
    exact ⟨agree_secondsAt_of_integral_eq hvalid hvalid' hsame hx hq,
      agree_beatAt_of_integral_eq hvalid hvalid' hsame hx hq⟩

end SameIntegral

/-- With exact arithmetic the index of a beat is that of the last segment that does not start after
it, and its time is the sum over the segments of what of each is in front of the beat, at its tempo.
A segment added at a free beat with the tempo that is in force there changes no answer. -/
theorem secondsAt_eq_integral {given : List (Segment Value)}
    (h : ofSegments .exact given = .ok map) :
    ∃ exacts, List.Forall₂ Segment.IsRational map.segments exacts ∧
      (∀ beat b, beat.toRat? = some b → 0 ≤ b →
        (∃ i : ℕ, map.indexAt beat = .ok i ∧ IsLastAt exacts b i) ∧
          IsExactly (answerOf (secondsAt .exact beat) map) (integral exacts b)) ∧
      ∀ start s, start.toRat? = some s → 0 ≤ s → (∀ exact ∈ exacts, exact.start ≠ s) →
        ∃ segment map', map.segmentAt start = .ok segment ∧
          add .exact map ⟨.number start, .number segment.bpm⟩ = .ok map' ∧
          ∀ x : Number, ∀ q, x.toRat? = some q →
            SameAnswer (answerOf (secondsAt .exact x) map')
                (answerOf (secondsAt .exact x) map) ∧
              SameAnswer (answerOf (beatAt .exact x) map')
                (answerOf (beatAt .exact x) map) := by
  obtain ⟨segments, -, hvalid, rfl⟩ := ofSegments_eq_ok_iff.1 h
  have hmap := isOf_fresh .exact segments
  refine ⟨segments.map Segment.exact, hvalid.isRational_exact, fun beat b hbeat hb =>
    ⟨exists_indexAt hmap hvalid hbeat hb, isExactly_secondsAt hmap hvalid hbeat hb⟩,
    fun start s hstart hs hfree => ?_⟩
  obtain ⟨front, segment, back, rfl, hsegment, hadd, hvalid', hbefore, hback⟩ :=
    exists_insert hvalid hstart hs fun segment hsegment =>
      hfree segment.exact (List.mem_map_of_mem hsegment)
  refine ⟨segment, _, hsegment, hadd, fun x q hx =>
    agree_of_integral_eq hvalid' hvalid (fun q => ?_) hx⟩
  -- The new segment cuts the one that it is inside of.
  have hcut : Segment.exact ⟨start, segment.bpm⟩ = ⟨s, segment.exact.bpm⟩ := by
    simp [Segment.exact, Segment.map, hstart]
  simp only [List.map_append, List.map_cons, hcut]
  refine integral_insert hbefore.le fun next hnext => ?_
  rw [List.head?_map, Option.mem_map] at hnext
  obtain ⟨next, hnext, rfl⟩ := hnext
  exact (hback next hnext).le

/-- On the beat where the tempo changes, the second of the two segments is in effect. A segment of
the tempo in effect, added on beat 8, changes no answer. -/
theorem secondsAt_eq_integral_twoTempos :
    ofSegments .exact [⟨.int 0, .int 120⟩, ⟨.int 16, .int 90⟩] = .ok twoTempos ∧
      ∃ exacts, List.Forall₂ Segment.IsRational twoTempos.segments exacts ∧
        (∃ i : ℕ, twoTempos.indexAt (.int 16) = .ok i ∧ IsLastAt exacts 16 i) ∧
        IsExactly (answerOf (secondsAt .exact (.int 16)) twoTempos) (integral exacts 16) ∧
        ∃ segment map', twoTempos.segmentAt (.int 8) = .ok segment ∧
          add .exact twoTempos ⟨.int 8, .number segment.bpm⟩ = .ok map' ∧
          SameAnswer (answerOf (secondsAt .exact (.int 20)) map')
            (answerOf (secondsAt .exact (.int 20)) twoTempos) := by
  have hmap : ofSegments .exact [⟨.int 0, .int 120⟩, ⟨.int 16, .int 90⟩] = .ok twoTempos := by
    decide +kernel
  obtain ⟨exacts, hexacts, htime, hadd⟩ := secondsAt_eq_integral hmap
  obtain ⟨hindex, hseconds⟩ := htime (.int 16) 16 rfl (by norm_num)
  have hfree : ∀ exact ∈ exacts, exact.start ≠ 8 := by
    intro exact hexact heq
    obtain ⟨segment, hsegment, hstart, -⟩ := exists_of_mem_right hexacts hexact
    rw [heq] at hstart
    rcases List.mem_pair.1 hsegment with rfl | rfl <;> simp [Number.toRat?_int] at hstart
  obtain ⟨segment, map', hsegment, hmap', hall⟩ := hadd (.int 8) 8 rfl (by norm_num) hfree
  exact ⟨hmap, exacts, hexacts, hindex, hseconds, segment, map', hsegment, hmap',
    (hall (.int 20) 20 rfl).1⟩

end TempoMap

end CueSheet
