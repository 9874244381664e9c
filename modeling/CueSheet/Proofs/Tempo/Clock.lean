import Mathlib.Data.List.TakeWhile
import CueSheet.Proofs.Tempo.Check
import CueSheet.Proofs.Tempo.Conflict
import CueSheet.Timeline

/-!
# The clock of a tempo map

A tempo map answers a question for a time by a search among its starts and a table of offsets that it
fills in once. Neither can be told from the answers: on segments in order (`InOrder`) the time of a
beat is what a walk along the segments adds up (`TempoMap.secondsFrom`), whichever questions have
been asked before (`TempoMap.run_secondsAt`).
-/

namespace CueSheet

/-! ## The search -/

section Search

variable {α : Type} {isBefore : α → Bool} {xs : List α}

/-- The search keeps the boundary inside its window: what is in front of the window comes before the
boundary, what is behind it does not, and so it is at the index at which the search ends. -/
theorem boundaryIn_splits (hordered : xs.Pairwise fun x y => isBefore y = true → isBefore x = true)
    {lo hi : ℕ} (inside : hi ≤ xs.length)
    (hlo : ∀ (i : ℕ) (h : i < xs.length), i < lo → isBefore xs[i] = true)
    (hhi : ∀ (i : ℕ) (h : i < xs.length), hi ≤ i → isBefore xs[i] = false) (window : lo ≤ hi) :
    (∀ (i : ℕ) (h : i < xs.length), i < boundaryIn isBefore xs lo hi inside →
      isBefore xs[i] = true) ∧
    ∀ (i : ℕ) (h : i < xs.length), boundaryIn isBefore xs lo hi inside ≤ i →
      isBefore xs[i] = false := by
  rw [List.pairwise_iff_getElem] at hordered
  fun_induction boundaryIn isBefore xs lo hi inside with
  -- The middle element comes before the boundary, and so does all in front of it.
  | case1 lo hi inside hlt mid hbefore ih =>
    have hmid : mid < hi := by omega
    refine ih (fun i h hi => ?_) hhi hmid
    rcases Nat.lt_succ_iff_lt_or_eq.1 hi with hlt | rfl
    · exact hordered i mid h (by omega) hlt hbefore
    · exact hbefore
  -- The middle element does not come before the boundary, and nothing behind it does.
  | case2 lo hi inside hlt mid hbefore ih =>
    have hmid : lo ≤ mid ∧ mid < hi := by omega
    refine ih hlo (fun i h hi => ?_) hmid.1
    rcases Nat.lt_or_eq_of_le hi with hlt | rfl
    · rw [← Bool.not_eq_true]
      exact fun htrue => hbefore (hordered mid i (by omega) h hlt htrue)
    · exact Bool.not_eq_true _ ▸ hbefore
  | case3 lo hi inside hge =>
    refine ⟨hlo, fun i h hle => hhi i h ?_⟩
    omega

/-- In a list that is ordered around a boundary the search splits the list there. -/
theorem boundary_getElem (hordered : xs.Pairwise fun x y => isBefore y = true → isBefore x = true) :
    (∀ (i : ℕ) (h : i < xs.length), i < boundary isBefore xs → isBefore xs[i] = true) ∧
      ∀ (i : ℕ) (h : i < xs.length), boundary isBefore xs ≤ i → isBefore xs[i] = false :=
  boundaryIn_splits hordered le_rfl
    (fun i _ (hi : i < 0) => absurd hi (Nat.not_lt_zero i)) (fun _ h hle => absurd h (not_lt.2 hle))
    (Nat.zero_le _)

/-- In a list that is ordered around a boundary the search ends behind the elements before it. -/
theorem boundary_eq (hordered : xs.Pairwise fun x y => isBefore y = true → isBefore x = true) :
    boundary isBefore xs = (xs.takeWhile isBefore).length := by
  obtain ⟨hfront, hback⟩ := boundary_getElem hordered
  have hle := boundary_le_length isBefore xs
  generalize boundary isBefore xs = k at *
  have hbehind : (xs.drop k).takeWhile isBefore = [] := by
    rw [List.takeWhile_eq_nil_iff]
    intro hdrop
    simpa using hback k (by rw [List.length_drop] at hdrop; omega) le_rfl
  have hsplit : xs.takeWhile isBefore = xs.take k := by
    conv_lhs => rw [← List.take_append_drop k xs]
    rw [List.takeWhile_append_of_pos, hbehind, List.append_nil]
    intro x hx
    obtain ⟨i, hi, rfl⟩ := List.mem_take_iff_getElem.1 hx
    exact hfront i _ (lt_of_lt_of_le hi (min_le_left _ _))
  rw [hsplit, List.length_take, min_eq_left hle]

end Search

/-! ## Segments in order -/

/-- A segment of amounts. -/
structure Segment.IsAmount (segment : Segment Number) : Prop where
  /-- The start is an amount. -/
  start : segment.start.IsAmount
  /-- The tempo is an amount. -/
  bpm : segment.bpm.IsAmount

/-- The segments in effect for a sound song are amounts. -/
theorem Song.IsSound.isAmount_of_segments {song : Song} (h : song.IsSound)
    {segments : List (Segment Number)} (hsegments : song.segments = segments.map Segment.values) :
    ∀ segment ∈ segments, segment.IsAmount := by
  intro segment hsegment
  obtain ⟨start, bpm, heq, hstart, hbpm⟩ :=
    h.segments segment.values (hsegments ▸ List.mem_map_of_mem hsegment)
  have hsame : segment = ⟨start, bpm⟩ := Segment.values_injective heq
  subst hsame
  exact ⟨hstart, hbpm⟩

/-- Segments of amounts in order of their starts, with tempos above zero. -/
structure Increase (segments : List (Segment Number)) : Prop where
  /-- The starts are amounts. -/
  start : ∀ segment ∈ segments, segment.start.IsAmount
  /-- The tempos are amounts above zero. -/
  bpm : ∀ segment ∈ segments, segment.bpm.IsAmount ∧ segment.bpm.isPositive = true
  /-- The starts increase. -/
  increasing : segments.Pairwise fun earlier later => earlier.start.lt later.start = true

/-- Segments as a tempo map has them: in order of their starts, the first of which is beat zero. -/
structure InOrder (segments : List (Segment Number)) : Prop extends Increase segments where
  /-- There is a segment, and the first one starts at beat zero. -/
  first : ∃ segment rest, segments = segment :: rest ∧ segment.start.toRat? = some 0

/-- Segments with finite starts that increase from beat zero. -/
structure Ascending (segments : List (Segment Number)) : Prop where
  /-- The starts are finite. -/
  finite : ∀ segment ∈ segments, ∃ q, segment.start.toRat? = some q
  /-- The starts increase. -/
  increasing : Increasing segments
  /-- There is a segment, and the first one starts at beat zero. -/
  first : ∃ segment rest, segments = segment :: rest ∧ segment.start.toRat? = some 0

/-- Segments in order ascend. -/
theorem InOrder.ascending {segments : List (Segment Number)} (h : InOrder segments) :
    Ascending segments :=
  ⟨fun segment hsegment => (h.start segment hsegment).nonneg.imp fun _ hq => hq.1, h.increasing,
    h.first⟩

/-- Segments that make a tempo map ascend. -/
theorem TempoMap.IsValid.ascending {ρ : Rounding} {segments : List (Segment Number)}
    (h : IsValid ρ segments) : Ascending segments := by
  have hfinite : ∀ segment ∈ segments, ∃ q, segment.start.toRat? = some q :=
    fun segment hsegment => Number.exists_toRat?_of_checkFinite (h.checked segment hsegment).start
  refine ⟨hfinite, h.increasing, ?_⟩
  obtain ⟨segment, hsegment, hzero⟩ := h.first
  obtain ⟨rest, rfl⟩ := List.head?_eq_some_iff.1 hsegment
  obtain ⟨q, hq⟩ := hfinite segment List.mem_cons_self
  refine ⟨segment, rest, rfl, ?_⟩
  rw [Number.eq_iff hq (Number.toRat?_int 0), Int.cast_zero] at hzero
  rw [hq, hzero]

/-- The segments behind the first one are in order as well. -/
theorem Increase.tail {segment : Segment Number} {segments : List (Segment Number)}
    (h : Increase (segment :: segments)) : Increase segments :=
  ⟨fun s hs => h.start s (List.mem_cons_of_mem _ hs), fun s hs => h.bpm s (List.mem_cons_of_mem _ hs),
    (List.pairwise_cons.1 h.increasing).2⟩

/-- The tempo map of a sound song has its segments in order and has worked out no offsets. -/
theorem TempoMap.inOrder_of_ofSong {song : Song} {map : TempoMap} (hsound : song.IsSound)
    (h : TempoMap.ofSong .binary64 song = .ok map) :
    InOrder map.segments ∧ map.starts = map.segments.map (·.start) ∧ map.offsets = none := by
  obtain ⟨segments, hsegments, hvalid, rfl⟩ := ofSegments_eq_ok_iff.1 h
  have hamounts := hsound.isAmount_of_segments hsegments
  have hincrease : Increase segments :=
    ⟨fun segment hsegment => (hamounts segment hsegment).start, fun segment hsegment =>
      ⟨(hamounts segment hsegment).bpm, (hvalid.checked segment hsegment).isPositive⟩,
      hvalid.increasing⟩
  exact ⟨⟨hincrease, hvalid.ascending.first⟩, rfl, rfl⟩

/-! ## Runs -/

namespace TempoM

variable {α β : Type}

/-- A run of two steps goes on from the map that the first step leaves, unless that fails. -/
theorem run_bind (x : TempoM α) (f : α → TempoM β) (map : TempoMap) :
    (x >>= f).run.run map =
      match x.run.run map with
      | (.ok a, map') => (f a).run.run map'
      | (.error fault, map') => (.error fault, map') := by
  rw [ExceptT.run_bind, StateT.run_bind]
  rcases x.run.run map with ⟨_ | _, _⟩ <;> rfl

/-- Looking at the map leaves it. -/
theorem run_get (map : TempoMap) : (get : TempoM TempoMap).run.run map = (.ok map, map) := rfl

/-- What does not look at the map leaves it. -/
theorem run_lift (x : Except Fault α) (map : TempoMap) :
    (ExceptT.mk (pure x) : TempoM α).run.run map = (x, map) := rfl

end TempoM

/-! ## The time of a beat -/

namespace TempoMap

variable {ρ : Rounding} {beat : Number} {segments : List (Segment Number)}

/-- The time of a beat as a walk along segments adds it up, given the time of the start of the first
segment: whole segments as long as the beat is not in front of the next one, and then the rest. -/
def secondsFrom (ρ : Rounding) (beat offset : Number) : List (Segment Number) → Except Fault Number
  | [] => return offset
  | [segment] => do Number.add ρ offset (← span ρ segment.start beat segment.bpm)
  | segment :: next :: segments => do
    if beat.lt next.start then Number.add ρ offset (← span ρ segment.start beat segment.bpm)
    else
      let later ← Number.add ρ offset (← span ρ segment.start next.start segment.bpm)
      secondsFrom ρ beat later (next :: segments)

/-- The time of a beat; a fault also if the start of any segment has no time. -/
def timeOf (ρ : Rounding) (segments : List (Segment Number)) (beat : Number) :
    Except Fault Number := do
  let _ ← computeOffsets ρ segments
  secondsFrom ρ beat (.real (.finite 0)) segments

/-- The element at an index behind the first one. -/
theorem atIndex_cons {α : Type} [Inhabited α] (x : α) (xs : List α) (n : ℕ) :
    atIndex (x :: xs) ((n + 1 : ℕ) : ℤ) = atIndex xs n := by
  simp [atIndex, show ¬((n : ℤ) + 1 < 0) by omega]

/-- If the first two points are not after the one that is looked up, the search ends behind the first
element, where it ends among the others. -/
theorem atIndex_takeWhile_cons {α : Type} [Inhabited α] {isBefore : Number → Bool}
    {first second : Number} (points : List Number) (hfirst : isBefore first = true)
    (hsecond : isBefore second = true) (x : α) (xs : List α) :
    atIndex (x :: xs) (((first :: second :: points).takeWhile isBefore).length - 1) =
      atIndex xs (((second :: points).takeWhile isBefore).length - 1) := by
  simp only [List.takeWhile_cons_of_pos hfirst, List.takeWhile_cons_of_pos hsecond,
    List.length_cons, Nat.cast_add, Nat.cast_one, add_sub_cancel_right]
  exact atIndex_cons ..

/-- If only the first point is not after the one that is looked up, the search ends there. -/
theorem atIndex_takeWhile_singleton {α : Type} [Inhabited α] {isBefore : Number → Bool}
    {first : Number} {points : List Number} (hfirst : isBefore first = true)
    (hpoints : ∀ point ∈ points.head?, isBefore point = false) (x : α) (xs : List α) :
    atIndex (x :: xs) (((first :: points).takeWhile isBefore).length - 1) = x := by
  have hnil : points.takeWhile isBefore = [] := by
    cases points with
    | nil => rfl
    | cons point points => exact List.takeWhile_cons_of_neg (by simp [hpoints point rfl])
  rw [List.takeWhile_cons_of_pos hfirst, hnil]
  rfl

/-- What a search finds and what the table holds add up to the time of a walk. -/
theorem secondsFrom_eq {offset : Number} {offsets : List Number}
    (hoffsets : offsetsFrom ρ offset segments = .ok offsets)
    (hfirst : ∀ segment ∈ segments.head?, beat.lt segment.start = false) (hne : segments ≠ []) :
    let index : ℤ := ((segments.map (·.start)).takeWhile fun start => !beat.lt start).length - 1
    span ρ (atIndex segments index).start beat (atIndex segments index).bpm >>=
        Number.add ρ (atIndex offsets index) =
      secondsFrom ρ beat offset segments := by
  induction segments generalizing offset offsets with
  | nil => exact absurd rfl hne
  | cons segment segments ih =>
    have hsegment : (!beat.lt segment.start) = true := by simpa using hfirst segment rfl
    cases segments with
    | nil =>
      obtain rfl := pure_eq_ok_iff.1 hoffsets
      dsimp only
      rw [List.map_cons, List.map_nil, atIndex_takeWhile_singleton hsegment (by simp),
        atIndex_takeWhile_singleton hsegment (by simp)]
      rfl
    | cons next segments =>
      obtain ⟨duration, hduration, hoffsets⟩ := bind_eq_ok.1 hoffsets
      obtain ⟨later, hlater, hoffsets⟩ := bind_eq_ok.1 hoffsets
      obtain ⟨rest, hrest, hoffsets⟩ := bind_eq_ok.1 hoffsets
      obtain rfl := pure_eq_ok_iff.1 hoffsets
      dsimp only
      rw [List.map_cons, List.map_cons, secondsFrom]
      -- Both the search and the walk end in the first segment exactly if the next one starts later.
      by_cases hnext : beat.lt next.start = true
      · have hhead : ∀ start ∈ (next.start :: segments.map (·.start)).head?,
            (!beat.lt start) = false := by
          rintro start ⟨⟩
          simpa using hnext
        rw [atIndex_takeWhile_singleton hsegment hhead, atIndex_takeWhile_singleton hsegment hhead,
          if_pos hnext]
      · have hnextBefore : (!beat.lt next.start) = true := by simpa using hnext
        have hrec := ih hrest (by simpa using hnext) (by simp)
        rw [List.map_cons] at hrec
        rw [atIndex_takeWhile_cons _ hsegment hnextBefore,
          atIndex_takeWhile_cons _ hsegment hnextBefore, hrec, if_neg hnext]
        simp [hduration, hlater]

/-- Among finite points that increase, those that are not after a point come first. -/
theorem pairwise_not_lt {points : List Number} {point : Number} {q : ℚ}
    (hfinite : ∀ x ∈ points, ∃ r, x.toRat? = some r)
    (hincreasing : points.Pairwise fun earlier later => earlier.lt later = true)
    (hpoint : point.toRat? = some q) :
    points.Pairwise fun earlier later =>
      (!point.lt later) = true → (!point.lt earlier) = true := by
  refine hincreasing.imp_of_mem fun {earlier later} hearlier hlater hlt hle => ?_
  obtain ⟨x, hx⟩ := hfinite earlier hearlier
  obtain ⟨y, hy⟩ := hfinite later hlater
  rw [Bool.not_eq_true', ← Bool.not_eq_true] at *
  exact fun hbefore => hle (Number.lt_trans_of_toRat? hpoint hx hy hbefore hlt)

/-- A search among finite points that increase ends behind those that are not after the point. -/
theorem indexIn_eq {points : List Number} {point : Number} {q : ℚ}
    (hfinite : ∀ x ∈ points, ∃ r, x.toRat? = some r)
    (hincreasing : points.Pairwise fun earlier later => earlier.lt later = true)
    (hpoint : point.toRat? = some q) :
    indexIn points point = ((points.takeWhile fun x => !point.lt x).length : ℤ) - 1 := by
  rw [indexIn, boundary_eq (pairwise_not_lt hfinite hincreasing hpoint)]

/-- A tempo map of segments; its table of offsets, if it has worked one out, is theirs. -/
structure IsOf (ρ : Rounding) (segments : List (Segment Number)) (map : TempoMap) : Prop where
  /-- The map has the segments. -/
  segments_eq : map.segments = segments
  /-- The map has their starts. -/
  starts_eq : map.starts = segments.map (·.start)
  /-- The table holds the times of their starts. -/
  offsets_eq : ∀ offsets ∈ map.offsets, computeOffsets ρ segments = .ok offsets

/-- The index of the segment of a beat of at least zero. -/
theorem indexAt_eq {map : TempoMap} {q : ℚ} (hmap : IsOf ρ segments map)
    (horder : Ascending segments) (hbeat : beat.toRat? = some q) (hq : 0 ≤ q) :
    map.indexAt beat =
      .ok (((segments.map (·.start)).takeWhile fun start => !beat.lt start).length - 1) := by
  have hnegative : beat.isNegative = false := by
    rw [← Bool.not_eq_true, Number.isNegative_iff hbeat]
    exact not_lt.2 hq
  have hfinite : ∀ start ∈ segments.map (·.start), ∃ r, start.toRat? = some r :=
    List.forall_mem_map.2 horder.finite
  unfold indexAt
  rw [hmap.starts_eq, indexIn_eq hfinite (List.pairwise_map.2 horder.increasing) hbeat, hnegative]
  rfl

/-- Looking up the table works it out the first time, and leaves the map as it is if there is none. -/
theorem run_offsetTable {map : TempoMap} (hmap : IsOf ρ segments map) :
    ∃ map', IsOf ρ segments map' ∧
      (offsetTable ρ).run.run map = (computeOffsets ρ segments, map') := by
  unfold offsetTable
  rw [TempoM.run_bind, TempoM.run_get]
  dsimp only
  cases hoffsets : map.offsets with
  | some offsets =>
    rw [hmap.offsets_eq offsets hoffsets]
    exact ⟨map, hmap, rfl⟩
  | none =>
    dsimp only
    rw [TempoM.run_bind, TempoM.run_lift, hmap.segments_eq]
    cases hcompute : computeOffsets ρ segments with
    | error fault => exact ⟨map, hmap, rfl⟩
    -- What is kept is what was worked out, so the map stays one of the segments.
    | ok offsets =>
      refine ⟨⟨segments, map.starts, some offsets⟩, ⟨rfl, hmap.starts_eq, ?_⟩, rfl⟩
      rintro _ ⟨⟩
      exact hcompute

/-- Whatever has been asked before, the time of a beat is that of a walk along the segments. -/
theorem run_secondsAt {map : TempoMap} {q : ℚ} (hmap : IsOf ρ segments map)
    (horder : Ascending segments) (hbeat : beat.toRat? = some q) (hq : 0 ≤ q) :
    ∃ map', IsOf ρ segments map' ∧
      (secondsAt ρ beat).run.run map = (timeOf ρ segments beat, map') := by
  obtain ⟨first, rest, hsegments, hzero⟩ := horder.first
  -- The first segment starts at beat zero, so the beat is not in front of it.
  have hfirst : ∀ segment ∈ segments.head?, beat.lt segment.start = false := by
    rw [hsegments]
    rintro segment ⟨⟩
    rw [← Bool.not_eq_true, Number.lt_iff hbeat hzero]
    exact not_lt.2 hq
  have hne : segments ≠ [] := by simp [hsegments]
  obtain ⟨map', hmap', htable⟩ := run_offsetTable hmap
  refine ⟨map', hmap', ?_⟩
  unfold secondsAt timeOf
  rw [TempoM.run_bind, TempoM.run_get]
  dsimp only
  rw [TempoM.run_bind, TempoM.run_lift, indexAt_eq hmap horder hbeat hq]
  dsimp only
  rw [TempoM.run_bind, htable]
  cases hoffsets : computeOffsets ρ segments with
  | error fault => rfl
  | ok offsets =>
    dsimp only
    rw [TempoM.run_lift, ok_bind, ← secondsFrom_eq hoffsets hfirst hne, hmap.segments_eq]

end TempoMap

end CueSheet
