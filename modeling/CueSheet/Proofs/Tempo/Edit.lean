import CueSheet.Proofs.Lists
import CueSheet.Proofs.Tempo.Cache

/-!
# Which tempo maps can be reached

Adding a segment makes checks of its own, and they leave out one that the check of a list of segments
makes: the start need not be finite. `TempoMap.isValid_leaveAll_iff` says what comes of it. A tempo
map stays valid as long as no segment is added that spoils it, which is one with a good tempo and
with a start that is no number, infinite, or a whole number beyond the real numbers
(`Segment.Spoils`); and once such a segment has been added, the map stays invalid.

The step is that a segment is put behind the segments that start before it and in front of those that
start after it (`Ascending.exists_insertIdx`), and that it leaves a valid map there if it is checked
(`TempoMap.IsValid.insertIdx`).
-/

namespace CueSheet

variable {ρ : Rounding} {segments : List (Segment Number)} {x y : Number}

/-! ## Starts at no beat -/

/-- A quantity that is not below zero and is not found to be finite either. -/
inductive Number.IsNowhere : Number → Prop where
  /-- The undefined value is. -/
  | nan : IsNowhere (.real .nan)
  /-- The infinity above all numbers is. -/
  | infinite : IsNowhere (.real (.infinite false))
  /-- A whole number beyond the real numbers is. -/
  | int {n : ℤ} (h : overflowAt ≤ n) : IsNowhere (.int n)

/-- The quantities at no beat are the ones that pass the test for a sign and not the one for
finiteness. -/
theorem Number.isNowhere_iff :
    x.IsNowhere ↔ x.isNegative = false ∧ x.checkFinite .binary64 ≠ .ok true := by
  constructor
  · intro h
    cases h with
    | nan => exact ⟨rfl, by decide⟩
    | infinite => exact ⟨rfl, by decide⟩
    -- A whole number that large cannot be asked whether it is finite.
    | @int n hn =>
      have hpos : (0 : ℚ) < n := overflowAt_pos.trans_le hn
      refine ⟨?_, ?_⟩
      · rw [← Bool.not_eq_true, isNegative_iff (toRat?_int n)]
        exact hpos.le.not_gt
      · rw [checkFinite, toReal_int, if_pos (hn.trans (le_abs_self _)), error_bind]
        simp
  · rintro ⟨hnegative, hfinite⟩
    cases x with
    | bool b => exact absurd rfl hfinite
    | int n =>
      rw [← Bool.not_eq_true, isNegative_iff (toRat?_int n), not_lt] at hnegative
      rw [checkFinite, toReal_int, abs_of_nonneg hnegative] at hfinite
      by_contra hsmall
      rw [if_neg fun hle => hsmall (.int hle)] at hfinite
      exact hfinite (by simp)
    | real x =>
      cases x with
      | nan => exact .nan
      | negZero | finite => exact absurd rfl hfinite
      | infinite negative =>
        cases negative with
        | false => exact .infinite
        | true => cases hnegative

/-- A finite start is not equal to one at no beat. -/
theorem Number.IsNowhere.eq_false (hx : x.IsNowhere) (hy : y.checkFinite .binary64 = .ok true)
    (hbinary : ∀ r, y = .real r → r.IsBinary64) : y.eq x = false := by
  obtain ⟨q, hq⟩ := exists_toRat?_of_checkFinite hy
  have hkept : y.IsKept := by
    cases y with
    | bool => trivial
    | real r => exact hbinary r rfl
    | int n =>
      by_contra hlarge
      obtain ⟨fault, hfault⟩ := fails_toReal_iff.2 ⟨n, rfl, not_lt.1 hlarge⟩
      rw [checkFinite, hfault] at hy
      cases hy
  -- Nothing equals the undefined value, and a finite quantity is below the two others.
  cases hx with
  | nan =>
    unfold eq
    cases y.extended <;> rfl
  | infinite =>
    unfold eq toRat? at *
    cases hvalue : y.extended <;> simp_all [extended, Extended.compare?, Extended.toRat?]
  | int hn =>
    rw [← Bool.not_eq_true, eq_iff hq (toRat?_int _)]
    rintro rfl
    exact absurd (hkept.abs_lt hq) (not_lt.2 (hn.trans (le_abs_self _)))

/-- A segment that can be added to a tempo map and leaves an invalid one: its tempo is accepted, and
its start is at no beat. -/
def Segment.Spoils (segment : Segment Value) : Prop :=
  ¬Fails (checkTempo .binary64 segment) ∧ ∃ start, segment.start = .number start ∧ start.IsNowhere

/-! ## The place of a start -/

/-- The first start that is not before a start is another one. -/
def IsFree (segments : List (Segment Number)) (start : Number) : Prop :=
  (segments.map (·.start))[boundary (·.lt start) (segments.map (·.start))]?.any (·.eq start) = false

namespace Ascending

variable {front back : List (Segment Number)} {added : Segment Number} {start : Number} {q : ℚ}

/-- A search for a start splits segments in front of the first one that does not start before it. -/
theorem boundary_splits (horder : Ascending segments) (hq : start.toRat? = some q) :
    ∃ front back, segments = front ++ back ∧
      boundary (·.lt start) (segments.map (·.start)) = front.length ∧
      (∀ segment ∈ front, segment.start.lt start = true) ∧
      ∀ segment ∈ back.head?, segment.start.lt start = false := by
  -- The starts are in order, so those that are before the new one stand in front.
  have hordered : (segments.map (·.start)).Pairwise fun earlier later =>
      later.lt start = true → earlier.lt start = true := by
    rw [List.pairwise_map]
    refine horder.increasing.imp_of_mem fun hearlier hlater hlt hbefore => ?_
    obtain ⟨p, hp⟩ := horder.finite _ hearlier
    obtain ⟨r, hr⟩ := horder.finite _ hlater
    exact Number.lt_trans_of_toRat? hp hr hq hlt hbefore
  refine ⟨segments.takeWhile (·.start.lt start), segments.dropWhile (·.start.lt start),
    List.takeWhile_append_dropWhile.symm, ?_, fun segment hsegment => ?_,
    fun segment hsegment => ?_⟩
  · rw [boundary_eq hordered, List.takeWhile_map, List.length_map]
    rfl
  · exact List.mem_takeWhile_imp (p := fun segment : Segment Number => segment.start.lt start) hsegment
  · have := List.head?_dropWhile_not (·.start.lt start) segments
    rw [Option.mem_def.1 hsegment] at this
    simpa using this

/-- A segment with a start of its own is put behind the segments that start before it, of which there
is one, and in front of those that start after it. -/
theorem exists_insertIdx (horder : Ascending segments) (hq : added.start.toRat? = some q)
    (hnonneg : added.start.isNegative = false) (hfree : IsFree segments added.start) :
    ∃ front back, front ≠ [] ∧ segments = front ++ back ∧
      segments.insertIdx (boundary (·.lt added.start) (segments.map (·.start))) added =
        front ++ added :: back ∧
      (∀ earlier ∈ front, earlier.start.lt added.start = true) ∧
      ∀ later ∈ back, added.start.lt later.start = true := by
  obtain ⟨front, back, rfl, hindex, hbefore, hback⟩ := horder.boundary_splits hq
  rw [IsFree, hindex] at hfree
  -- The first start behind the place is not before the new one and not equal to it.
  have hhead : ∀ later ∈ back.head?, added.start.lt later.start = true := by
    intro later hlater
    obtain ⟨rest, rfl⟩ := List.head?_eq_some_iff.1 hlater
    obtain ⟨r, hr⟩ := horder.finite later (by simp)
    have hne : later.start.eq added.start = false := by simpa using hfree
    have hnotBefore := hback later rfl
    rw [← Bool.not_eq_true, Number.eq_iff hr hq] at hne
    rw [← Bool.not_eq_true, Number.lt_iff hr hq] at hnotBefore
    rw [Number.lt_iff hq hr]
    exact lt_of_le_of_ne (not_lt.1 hnotBefore) (Ne.symm hne)
  refine ⟨front, back, ?_, rfl, ?_, hbefore, ?_⟩
  · -- A start in front of beat zero would be below zero.
    rintro rfl
    obtain ⟨first, rest, rfl, hzero⟩ := horder.first
    rw [← Bool.not_eq_true, Number.isNegative_iff hq] at hnonneg
    exact hnonneg ((Number.lt_iff hq hzero).1 (hhead first rfl))
  · rw [hindex, insertIdx_length_append]
  · -- The starts behind the place increase, so all of them are after the new one.
    cases back with
    | nil => nofun
    | cons first rest =>
      have hfirst := hhead first rfl
      obtain ⟨p, hp⟩ := horder.finite first (by simp)
      have hincreasing := (List.pairwise_append.1 horder.increasing).2.1
      refine List.forall_mem_cons.2 ⟨hfirst, fun later hlater => ?_⟩
      obtain ⟨r, hr⟩ := horder.finite later (by simp [hlater])
      exact Number.lt_trans_of_toRat? hq hp hr hfirst
        ((List.pairwise_cons.1 hincreasing).1 later hlater)

/-- A segment put between those that start before it and those that start after it leaves segments
in order. -/
theorem insert (horder : Ascending (front ++ back)) (hne : front ≠ [])
    (hq : added.start.toRat? = some q)
    (hbefore : ∀ earlier ∈ front, earlier.start.lt added.start = true)
    (hbehind : ∀ later ∈ back, added.start.lt later.start = true) :
    Ascending (front ++ added :: back) := by
  obtain ⟨hfront, hback, hacross⟩ := List.pairwise_append.1 horder.increasing
  refine ⟨fun segment hsegment => ?_, ?_, ?_⟩
  · rw [List.mem_append, List.mem_cons] at hsegment
    obtain hsegment | rfl | hsegment := hsegment
    · exact horder.finite segment (List.mem_append_left _ hsegment)
    · exact ⟨q, hq⟩
    · exact horder.finite segment (List.mem_append_right _ hsegment)
  · exact List.pairwise_append.2 ⟨hfront, List.pairwise_cons.2 ⟨hbehind, hback⟩,
      fun earlier hearlier => List.forall_mem_cons.2 ⟨hbefore earlier hearlier,
        hacross earlier hearlier⟩⟩
  · obtain ⟨first, front, rfl⟩ := List.exists_cons_of_ne_nil hne
    obtain ⟨_, _, heq, hzero⟩ := horder.first
    obtain ⟨rfl, -⟩ := List.cons.inj heq
    exact ⟨first, front ++ added :: back, rfl, hzero⟩

end Ascending

namespace TempoMap

/-! ## The place of a segment -/

/-- A segment has a place if its tempo is accepted, its start is not below zero, and the start that a
search for it finds is another one. -/
theorem place_eq_ok_iff {starts : List Number} {segment : Segment Value}
    {placed : ℕ × Segment Number} :
    place ρ starts segment = .ok placed ↔
      ∃ added : Segment Number, checkTempo ρ segment = .ok added.bpm ∧
        segment.start = .number added.start ∧ added.start.isNegative = false ∧
        starts[boundary (·.lt added.start) starts]?.any (·.eq added.start) = false ∧
        placed = (boundary (·.lt added.start) starts, added) := by
  have hnumber {start : Number} :
      segment.start.toNumber '<' = .ok start ↔ segment.start = .number start := by
    cases segment.start <;> simp [Value.toNumber]
  unfold place
  simp only [bind_eq_ok, conflict_guard_eq_ok_iff, shown_guard_eq_ok_iff, hnumber, pure_eq_ok_iff,
    Bool.not_eq_true]
  constructor
  · rintro ⟨bpm, hbpm, start, hstart, hnegative, hfree, rfl⟩
    exact ⟨⟨start, bpm⟩, hbpm, hstart, hnegative, hfree, rfl⟩
  · rintro ⟨added, hbpm, hstart, hnegative, hfree, rfl⟩
    exact ⟨added.bpm, hbpm, added.start, hstart, hnegative, hfree, rfl⟩

/-- A segment put in its place leaves valid segments. -/
theorem IsValid.insertIdx (hvalid : IsValid ρ segments) {added : Segment Number}
    (hadded : added.IsChecked ρ) (hnonneg : added.start.isNegative = false)
    (hfree : IsFree segments added.start) :
    IsValid ρ (segments.insertIdx (boundary (·.lt added.start) (segments.map (·.start))) added) := by
  obtain ⟨q, hq⟩ := Number.exists_toRat?_of_checkFinite hadded.start
  obtain ⟨front, back, hne, rfl, hinsert, hbefore, hbehind⟩ :=
    hvalid.ascending.exists_insertIdx hq hnonneg hfree
  rw [hinsert]
  refine ⟨?_, fun segment hsegment => ?_,
    (hvalid.ascending.insert hne hq hbefore hbehind).increasing⟩
  · obtain ⟨first, front, rfl⟩ := List.exists_cons_of_ne_nil hne
    exact hvalid.first
  · rw [List.mem_append, List.mem_cons] at hsegment
    obtain hsegment | rfl | hsegment := hsegment
    · exact hvalid.checked segment (List.mem_append_left _ hsegment)
    · exact hadded
    · exact hvalid.checked segment (List.mem_append_right _ hsegment)

/-- A checked segment is added in its place if no segment starts at its start. -/
theorem add_fresh {added : Segment Number} (hadded : added.IsChecked ρ)
    (hnonneg : added.start.isNegative = false) (hfree : IsFree segments added.start) :
    add ρ (fresh segments) added.values =
      .ok (fresh (segments.insertIdx
        (boundary (·.lt added.start) (segments.map (·.start))) added)) := by
  have hbpm : checkTempo ρ added.values = .ok added.bpm :=
    checkTempo_eq_ok_iff.2 ⟨rfl, hadded.isPositive, hadded.bpm⟩
  have hplace := place_eq_ok_iff.2 ⟨added, hbpm, rfl, hnonneg, hfree, rfl⟩
  rw [add_eq, fresh, hplace, ok_bind, insertAt, fresh, List.map_insertIdx]

/-- A tempo map of segments is one of valid segments. -/
theorem isValid_of_ofSegments {given : List (Segment Value)} {map : TempoMap}
    (h : ofSegments ρ given = .ok map) : IsOf ρ map.segments map ∧ IsValid ρ map.segments := by
  obtain ⟨segments, -, hvalid, rfl⟩ := ofSegments_eq_ok_iff.1 h
  exact ⟨isOf_fresh ρ segments, hvalid⟩

/-! ## Runs of edits -/

variable {map : TempoMap}

/-- Adding a segment puts it in its place, or leaves the segments as they are. -/
theorem segments_leave_add (segment : Segment Value) :
    ((Operation.add segment).leave ρ map).segments =
      match place ρ map.starts segment with
      | .ok (index, added) => map.segments.insertIdx index added
      | .error _ => map.segments := by
  unfold Operation.leave
  rw [run_add]
  cases place ρ map.starts segment <;> rfl

/-- Segments stay when segments are added. -/
theorem subset_leaveAll_adds (adds : List (Segment Value)) :
    map.segments ⊆ (leaveAll ρ map (adds.map .add)).segments := by
  induction adds generalizing map with
  | nil => exact List.Subset.refl _
  | cons segment adds ih =>
    have hrest := @ih ((Operation.add segment).leave ρ map)
    refine List.Subset.trans ?_ hrest
    rw [segments_leave_add]
    cases place ρ map.starts segment with
    | error => exact List.Subset.refl _
    | ok placed => exact List.subset_insertIdx ..

/-- The starts of segments that are real numbers are binary64 numbers. -/
def HasBinary64Starts (segments : List (Segment Value)) : Prop :=
  ∀ segment ∈ segments, ∀ x, segment.start = .number (.real x) → x.IsBinary64

/-- Adding a segment that does not spoil a valid tempo map keeps it valid. -/
theorem isValid_leave_add (hmap : IsOf .binary64 map.segments map)
    (hvalid : IsValid .binary64 map.segments) {segment : Segment Value} (h : ¬segment.Spoils) :
    IsValid .binary64 ((Operation.add segment).leave .binary64 map).segments := by
  rw [segments_leave_add]
  cases hplace : place .binary64 map.starts segment with
  | error => exact hvalid
  | ok placed =>
    obtain ⟨added, hbpm, hstart, hnegative, hfree, rfl⟩ := place_eq_ok_iff.1 hplace
    obtain ⟨-, hpositive, hbpmFinite⟩ := checkTempo_eq_ok_iff.1 hbpm
    -- The search leaves out the test for finiteness, which is what spoiling is about.
    have hstartFinite : added.start.checkFinite .binary64 = .ok true := by
      by_contra hnowhere
      exact h ⟨hbpm ▸ not_fails_ok _, added.start, hstart,
        Number.isNowhere_iff.2 ⟨hnegative, hnowhere⟩⟩
    rw [hmap.starts_eq] at hfree ⊢
    exact hvalid.insertIdx ⟨hstartFinite, hpositive, hbpmFinite⟩ hnegative hfree

/-- A segment that spoils a valid tempo map is put into it. -/
theorem exists_mem_leave_add (hmap : IsOf .binary64 map.segments map)
    (hvalid : IsValid .binary64 map.segments)
    (hbinary : HasBinary64Starts (map.segments.map Segment.values)) {segment : Segment Value}
    (h : segment.Spoils) :
    ∃ added ∈ ((Operation.add segment).leave .binary64 map).segments,
      added.start.checkFinite .binary64 ≠ .ok true := by
  obtain ⟨hbpm, start, hstart, hnowhere⟩ := h
  obtain ⟨bpm, hbpm⟩ := not_fails_iff.1 hbpm
  obtain ⟨hnegative, hfinite⟩ := Number.isNowhere_iff.1 hnowhere
  -- No start equals one at no beat, so the search finds the place free.
  have hother : ∀ other ∈ map.starts, other.eq start = false := by
    rw [hmap.starts_eq]
    refine List.forall_mem_map.2 fun other hother => ?_
    refine hnowhere.eq_false (hvalid.checked other hother).start fun r hr => ?_
    exact hbinary other.values (List.mem_map_of_mem hother) r (congrArg Value.number hr)
  have hfree : map.starts[boundary (·.lt start) map.starts]?.any (·.eq start) = false := by
    cases hfound : map.starts[boundary (·.lt start) map.starts]? with
    | none => rfl
    | some other => exact hother other (List.mem_of_getElem? hfound)
  have hplace := place_eq_ok_iff.2 ⟨⟨start, bpm⟩, hbpm, hstart, hnegative, hfree, rfl⟩
  refine ⟨⟨start, bpm⟩, ?_, hfinite⟩
  rw [segments_leave_add, hplace]
  refine (List.mem_insertIdx ?_).2 (.inl rfl)
  rw [← List.length_map (f := (·.start)), ← hmap.starts_eq]
  exact boundary_le_length _ _

/-- The starts of a tempo map are binary64 numbers if the added start is. -/
theorem hasBinary64Starts_leave_add (hbinary : HasBinary64Starts (map.segments.map Segment.values))
    {segment : Segment Value} (hsegment : ∀ x, segment.start = .number (.real x) → x.IsBinary64) :
    HasBinary64Starts
      (((Operation.add segment).leave ρ map).segments.map Segment.values) := by
  rw [segments_leave_add]
  cases hplace : place ρ map.starts segment with
  | error => exact hbinary
  | ok placed =>
    obtain ⟨added, -, hstart, -, -, rfl⟩ := place_eq_ok_iff.1 hplace
    refine List.forall_mem_map.2 fun other hother => ?_
    obtain rfl | hother := List.eq_or_mem_of_mem_insertIdx hother
    · exact fun x hx => hsegment x (hstart.trans hx)
    · exact List.forall_mem_map.1 hbinary other hother

/-- A valid tempo map stays valid exactly as long as no segment is added that spoils it. -/
theorem isValid_segments_leaveAll_iff (hmap : IsOf .binary64 map.segments map)
    (hvalid : IsValid .binary64 map.segments)
    (hbinary : HasBinary64Starts (map.segments.map Segment.values)) {adds : List (Segment Value)}
    (hadds : HasBinary64Starts adds) :
    IsValid .binary64 (leaveAll .binary64 map (adds.map .add)).segments ↔
      ∀ segment ∈ adds, ¬segment.Spoils := by
  induction adds generalizing map with
  | nil => exact iff_of_true hvalid nofun
  | cons segment adds ih =>
    obtain ⟨hsegment, hadds⟩ := List.forall_mem_cons.1 hadds
    rw [List.forall_mem_cons]
    by_cases hspoils : segment.Spoils
    · -- What spoils the map stays in it, whatever is added later.
      refine iff_of_false (fun h => ?_) fun h => h.1 hspoils
      obtain ⟨added, hadded, hfinite⟩ := exists_mem_leave_add hmap hvalid hbinary hspoils
      exact hfinite (h.checked added (subset_leaveAll_adds adds hadded)).start
    · rw [and_iff_right hspoils]
      exact ih (isOf_leave hmap _) (isValid_leave_add hmap hvalid hspoils)
        (hasBinary64Starts_leave_add hbinary hsegment) hadds

/-- Segments are the quantities that their values are read as. -/
theorem map_values_injective : Function.Injective (List.map Segment.values) :=
  List.map_injective_iff.2 Segment.values_injective

/-- After any segments have been added to a tempo map, its segments are valid exactly if none of the
added ones spoils a map, and the check of segments accepts exactly the valid ones. -/
theorem isValid_leaveAll_iff {given adds : List (Segment Value)}
    (h : ofSegments .binary64 given = .ok map) (hbinary : HasBinary64Starts (given ++ adds)) :
    let current := (leaveAll .binary64 map (adds.map .add)).segments
    (IsValid .binary64 current ↔ ∀ segment ∈ adds, ¬segment.Spoils) ∧
      (¬Fails (checkSegments .binary64 (current.map Segment.values)) ↔
        IsValid .binary64 current) := by
  intro current
  obtain ⟨hgiven, hadds⟩ := List.forall_mem_append.1 hbinary
  obtain ⟨segments, rfl, hvalid, rfl⟩ := ofSegments_eq_ok_iff.1 h
  have hmap : IsOf .binary64 (fresh segments).segments (fresh segments) := isOf_fresh _ segments
  refine ⟨isValid_segments_leaveAll_iff hmap hvalid hgiven hadds, ?_⟩
  -- The first segment is never removed, so the check of segments finds some.
  have hne : current.map Segment.values ≠ [] := by
    obtain ⟨first, hfirst, -⟩ := hvalid.first
    have hsubset : (fresh segments).segments ⊆ current := subset_leaveAll_adds adds
    have hmem : first ∈ current := hsubset (List.mem_of_mem_head? hfirst)
    exact fun hnil => List.not_mem_nil (List.map_eq_nil_iff.1 hnil ▸ hmem)
  rw [not_fails_iff]
  constructor
  · rintro ⟨checked, hchecked⟩
    obtain ⟨hsame, hvalid⟩ := (checkSegments_eq_ok_iff hne).1 hchecked
    rwa [map_values_injective hsame]
  · exact fun hvalid => ⟨current, (checkSegments_eq_ok_iff hne).2 ⟨rfl, hvalid⟩⟩

/-- A segment without a start is added here, so the segments that come of the edits are not in
order. The map that the edits start from, and the starts of the segments, are as they have to be. -/
theorem isValid_leaveAll_iff_twoTempos :
    let adds : List (Segment Value) := [⟨.int 8, .int 60⟩, ⟨.number (.real .nan), .int 0⟩]
    let current := (leaveAll .binary64 twoTempos (adds.map .add)).segments
    ofSegments .binary64 [⟨.int 0, .int 120⟩, ⟨.int 16, .int 90⟩] = .ok twoTempos ∧
      HasBinary64Starts ([⟨.int 0, .int 120⟩, ⟨.int 16, .int 90⟩] ++ adds) ∧
      (IsValid .binary64 current ↔ ∀ segment ∈ adds, ¬segment.Spoils) := by
  intro adds current
  have hmap : ofSegments .binary64 [⟨.int 0, .int 120⟩, ⟨.int 16, .int 90⟩] = .ok twoTempos := by
    decide +kernel
  have hbinary : HasBinary64Starts ([⟨.int 0, .int 120⟩, ⟨.int 16, .int 90⟩] ++ adds) := by
    have hnan : ∀ x, (.number (.real .nan) : Value) = .number (.real x) → x.IsBinary64 := by
      rintro x ⟨⟩
      trivial
    exact List.forall_mem_cons.2 ⟨nofun, List.forall_mem_cons.2 ⟨nofun,
      List.forall_mem_cons.2 ⟨nofun, List.forall_mem_cons.2 ⟨hnan, nofun⟩⟩⟩⟩
  exact ⟨hmap, hbinary, (isValid_leaveAll_iff hmap hbinary).1⟩

/-- A segment that starts at an undefined beat is added without a conflict, and the check of the
segments that it leaves finds one. -/
theorem fails_checkSegments_nan :
    let one : TempoMap := fresh [⟨.int 0, .int 120⟩]
    let undefined : Segment Value := ⟨.number (.real .nan), .int 120⟩
    ofSegments .binary64 [⟨.int 0, .int 120⟩] = .ok one ∧
      ¬Fails ((Operation.add undefined).answer .binary64 one) ∧
      checkSegments .binary64
          (((Operation.add undefined).leave .binary64 one).segments.map Segment.values) =
        .error (.conflict (.start "nan") (some undefined.start)) := by
  intro one undefined
  have hanswer : (Operation.add undefined).answer .binary64 one =
      .ok (.segments [⟨.real .nan, .int 120⟩, ⟨.int 0, .int 120⟩]) := by decide +kernel
  refine ⟨by decide +kernel, ?_, by decide +kernel⟩
  rw [hanswer]
  exact not_fails_ok _

end TempoMap

end CueSheet
