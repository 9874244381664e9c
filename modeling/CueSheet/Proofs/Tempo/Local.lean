import CueSheet.Proofs.Tempo.Integral

/-!
# What an edit of a tempo map leaves alone

A segment that is added at a beat does not reach in front of it. An earlier beat keeps its segment and
its tempo, and it keeps its time under every rounding, because the walk that adds the time up ends
before it comes to the new segment (`TempoMap.secondsFrom_append`). With exact arithmetic the beats from
the next segment on all move by one time: the part between the new segment and the next one is taken
at the new tempo and no longer at the tempo before it (`integral_insert_of_le`).

`TempoMap.add_isLocal` says both of an edit of a tempo map.
-/

namespace CueSheet

/-! ## The sum with a segment more -/

/-- A beat behind the segment after a new one moves by what the new tempo makes of the part between
the two. -/
theorem integral_insert_of_le {segment added next : Segment ℚ} {front back : List (Segment ℚ)}
    {beat : ℚ} (hadded : segment.start ≤ added.start) (hnext : added.start ≤ next.start)
    (hbeat : next.start ≤ beat) :
    integral (front ++ segment :: added :: next :: back) beat =
      integral (front ++ segment :: next :: back) beat +
        (next.start - added.start) * (60 / added.bpm - 60 / segment.bpm) := by
  obtain ⟨c, hc⟩ := exists_integral_append front segment beat
  rw [hc, hc]
  simp only [integral_cons segment, integral_cons added, List.head?_cons, Option.map_some,
    Option.getD_some, min_eq_right hbeat, min_eq_right (hnext.trans hbeat),
    max_eq_right (sub_nonneg.2 hadded), max_eq_right (sub_nonneg.2 hnext),
    max_eq_right (sub_nonneg.2 (hadded.trans hnext))]
  ring

namespace TempoMap

variable {ρ : Rounding} {map map' : TempoMap} {front : List (Segment Number)} {beat : Number} {b : ℚ}

/-! ## In front of an edit -/

/-- The walk to a beat does not come to segments that start behind it. -/
theorem secondsFrom_append {back : List (Segment Number)} (hne : front ≠ [])
    (hback : ∀ later ∈ back.head?, beat.lt later.start = true) (offset : Number) :
    secondsFrom ρ beat offset (front ++ back) = secondsFrom ρ beat offset front := by
  induction front generalizing offset with
  | nil => exact absurd rfl hne
  | cons segment front ih =>
    cases front with
    | cons next front =>
      have hrest := ih (List.cons_ne_nil _ _)
      rw [List.cons_append] at hrest
      rw [List.cons_append, List.cons_append, secondsFrom, secondsFrom]
      simp only [hrest]
    | nil =>
      cases back with
      | nil => rfl
      | cons later back =>
        rw [List.singleton_append, secondsFrom, secondsFrom, if_pos (hback later rfl)]

/-- A beat in front of some segments is held by a segment in front of them, whichever they are. -/
theorem exists_segmentAt_append
    (hfirst : ∃ first rest, front = first :: rest ∧ first.start.toRat? = some 0)
    (hbeat : beat.toRat? = some b) (hb : 0 ≤ b) :
    ∃ segment, ∀ back, Ascending (front ++ back) →
      (∀ later ∈ back.head?, beat.lt later.start = true) →
        (fresh (front ++ back)).segmentAt beat = .ok segment := by
  -- The first segment starts at beat zero, so there is a last one that does not start after the beat.
  obtain ⟨before, after, hsplit, hbefore, hafter⟩ : ∃ before after, front = before ++ after ∧
      (∀ earlier ∈ before, beat.lt earlier.start = false) ∧
      ∀ later ∈ after.head?, beat.lt later.start = true := by
    refine ⟨front.takeWhile (!beat.lt ·.start), front.dropWhile (!beat.lt ·.start),
      List.takeWhile_append_dropWhile.symm, fun earlier hearlier => ?_, fun later hlater => ?_⟩
    · simpa using List.mem_takeWhile_imp hearlier
    · have := List.head?_dropWhile_not (!beat.lt ·.start) front
      rw [Option.mem_def.1 hlater] at this
      simpa using this
  obtain ⟨first, rest, hcons, hzero⟩ := hfirst
  rcases List.eq_nil_or_concat' before with rfl | ⟨before, segment, rfl⟩
  · rw [List.nil_append] at hsplit
    have hlt := hafter first (by rw [← hsplit, hcons]; rfl)
    rw [Number.lt_iff hbeat hzero] at hlt
    exact absurd hlt (not_lt.2 hb)
  · refine ⟨segment, fun back horder hback => ?_⟩
    rw [hsplit, List.append_assoc, List.append_assoc, List.singleton_append] at horder ⊢
    refine segmentAt_eq horder hbeat hb hbefore ?_
    cases after with
    | nil => exact hback
    | cons later after => exact hafter

/-- The time of a beat is that of the walk, if it has one. -/
theorem secondsFrom_of_answerOf {segments : List (Segment Number)} {seconds : Number}
    (hmap : IsOf ρ segments map) (horder : Ascending segments) (hbeat : beat.toRat? = some b)
    (hb : 0 ≤ b) (h : answerOf (secondsAt ρ beat) map = .ok seconds) :
    secondsFrom ρ beat (.real (.finite 0)) segments = .ok seconds := by
  obtain ⟨_, -, hrun⟩ := run_secondsAt hmap horder hbeat hb
  rw [answerOf, hrun] at h
  obtain ⟨_, -, hwalk⟩ := bind_eq_ok.1 h
  exact hwalk

/-- The tempo at a beat is that of its segment. -/
theorem answer_bpmAt {segment : Segment Number} (h : map.segmentAt beat = .ok segment) :
    (Operation.bpmAt (.number beat)).answer ρ map = .ok (.number segment.bpm) := by
  unfold Operation.answer Operation.run point
  rw [TempoM.run_bind, TempoM.run_lift]
  dsimp only [Value.toNumber]
  rw [TempoM.run_bind, TempoM.run_get]
  dsimp only
  rw [TempoM.run_bind, TempoM.run_lift, h]
  rfl

/-- Two maps with the same segments up to behind a beat have the same segment and tempo for it, and the
same time if both have one. -/
theorem answers_eq_of_append {back back' : List (Segment Number)} (hne : front ≠ [])
    (hmap : IsOf ρ (front ++ back) map) (hmap' : IsOf ρ (front ++ back') map')
    (horder : Ascending (front ++ back)) (horder' : Ascending (front ++ back'))
    (hbeat : beat.toRat? = some b) (hb : 0 ≤ b)
    (hback : ∀ later ∈ back.head?, beat.lt later.start = true)
    (hback' : ∀ later ∈ back'.head?, beat.lt later.start = true) :
    (∃ segment, map.segmentAt beat = .ok segment ∧ map'.segmentAt beat = .ok segment ∧
      (Operation.bpmAt (.number beat)).answer ρ map = .ok (.number segment.bpm) ∧
      (Operation.bpmAt (.number beat)).answer ρ map' = .ok (.number segment.bpm)) ∧
    ∀ seconds seconds', answerOf (secondsAt ρ beat) map = .ok seconds →
      answerOf (secondsAt ρ beat) map' = .ok seconds' → seconds' = seconds := by
  have hfirst : ∃ first rest, front = first :: rest ∧ first.start.toRat? = some 0 := by
    obtain ⟨first, front, rfl⟩ := List.exists_cons_of_ne_nil hne
    obtain ⟨_, _, heq, hzero⟩ := horder.first
    obtain ⟨rfl, -⟩ := List.cons.inj heq
    exact ⟨first, front, rfl, hzero⟩
  obtain ⟨segment, hsegment⟩ := exists_segmentAt_append hfirst hbeat hb
  have hold := (segmentAt_eq_fresh hmap beat).trans (hsegment back horder hback)
  have hnew := (segmentAt_eq_fresh hmap' beat).trans (hsegment back' horder' hback')
  refine ⟨⟨segment, hold, hnew, answer_bpmAt hold, answer_bpmAt hnew⟩,
    fun seconds seconds' hseconds hseconds' => ?_⟩
  -- Both walks end in the segments that the maps have in common.
  have hwalk := secondsFrom_of_answerOf hmap horder hbeat hb hseconds
  have hwalk' := secondsFrom_of_answerOf hmap' horder' hbeat hb hseconds'
  rw [secondsFrom_append hne hback] at hwalk
  rw [secondsFrom_append hne hback', hwalk] at hwalk'
  exact (Except.ok.inj hwalk').symm

/-! ## Behind an edit -/

/-- No segment of a tempo map starts in front of beat zero. -/
theorem IsValid.exact_start_nonneg {segments : List (Segment Number)} (h : IsValid ρ segments) :
    ∀ segment ∈ segments, 0 ≤ segment.exact.start := by
  obtain ⟨first, rest, hexacts, hzero⟩ := h.exists_exact_eq_cons
  have hclimbs := h.climbs_exact.increasing
  intro segment hsegment
  have hmem : segment.exact ∈ segments.map Segment.exact := List.mem_map_of_mem hsegment
  rw [hexacts] at hclimbs hmem
  rcases List.mem_cons.1 hmem with heq | hmem
  · exact (heq ▸ hzero).ge
  · exact hzero ▸ ((List.pairwise_cons.1 hclimbs).1 _ hmem).le

/-- With exact arithmetic a segment more moves all beats from the next segment on by the time that the
part between the two gains or loses. -/
theorem isExactly_secondsAt_insert {segment added next : Segment Number}
    {back : List (Segment Number)}
    (hmap : IsOf .exact (front ++ segment :: next :: back) map)
    (hmap' : IsOf .exact (front ++ segment :: added :: next :: back) map')
    (hvalid : IsValid .exact (front ++ segment :: next :: back))
    (hvalid' : IsValid .exact (front ++ segment :: added :: next :: back))
    (hbeat : beat.toRat? = some b) (hb : next.exact.start ≤ b) :
    ∃ seconds, IsExactly (answerOf (secondsAt .exact beat) map) seconds ∧
      IsExactly (answerOf (secondsAt .exact beat) map')
        (seconds + (next.exact.start - added.exact.start) *
          (60 / added.exact.bpm - 60 / segment.exact.bpm)) := by
  have hclimbs := hvalid'.climbs_exact.increasing
  rw [List.map_append, List.map_cons, List.map_cons, List.map_cons, List.pairwise_append] at hclimbs
  obtain ⟨hsegment, hclimbs⟩ := List.pairwise_cons.1 hclimbs.2.1
  have hadded := hsegment added.exact List.mem_cons_self
  have hnext := (List.pairwise_cons.1 hclimbs).1 next.exact List.mem_cons_self
  have hnonneg : 0 ≤ b := (hvalid.exact_start_nonneg next (by simp)).trans hb
  have hold := isExactly_secondsAt hmap hvalid hbeat hnonneg
  have hnew := isExactly_secondsAt hmap' hvalid' hbeat hnonneg
  simp only [List.map_append, List.map_cons] at hold hnew
  rw [integral_insert_of_le hadded.le hnext.le hb] at hnew
  exact ⟨_, hold, hnew⟩

/-! ## An edit -/

/-- A successful edit with a finite start puts a segment between those that start before it, of which
there is one, and those that start after it. -/
theorem exists_of_add_eq_ok (hmap : IsOf ρ map.segments map) (hvalid : IsValid ρ map.segments)
    {start bpm : Number} {s : ℚ} (hstart : start.toRat? = some s)
    (hadd : add ρ map ⟨.number start, .number bpm⟩ = .ok map') :
    ∃ front segment back, map.segments = front ++ segment :: back ∧
      IsOf ρ (front ++ segment :: ⟨start, bpm⟩ :: back) map' ∧
      Ascending (front ++ segment :: ⟨start, bpm⟩ :: back) ∧
      (start.checkFinite ρ = .ok true →
        IsValid ρ (front ++ segment :: ⟨start, bpm⟩ :: back)) ∧
      (∀ earlier ∈ front ++ [segment], earlier.start.lt start = true) ∧
      ∀ later ∈ back, start.lt later.start = true := by
  rw [add_eq] at hadd
  obtain ⟨placed, hplaced, h⟩ := bind_eq_ok.1 hadd
  obtain rfl := Except.ok.inj h
  obtain ⟨added, hbpm, hsame, hnonneg, hfree, rfl⟩ := place_eq_ok_iff.1 hplaced
  obtain ⟨hsame', hpositive, hfinite⟩ := checkTempo_eq_ok_iff.1 hbpm
  obtain rfl : added = ⟨start, bpm⟩ :=
    Segment.values_injective (congrArg₂ Segment.mk hsame.symm hsame'.symm)
  rw [hmap.starts_eq] at hfree ⊢
  obtain ⟨front, back, hne, hsegments, hinsert, hbefore, hbehind⟩ :=
    hvalid.ascending.exists_insertIdx hstart hnonneg hfree
  -- A segment starts at zero, so there is one in front of the new one.
  obtain ⟨front, segment, rfl⟩ := (List.eq_nil_or_concat' front).resolve_left hne
  rw [List.append_assoc, List.singleton_append] at hsegments hinsert
  have horder := hvalid.ascending
  rw [hsegments, List.append_cons] at horder
  refine ⟨front, segment, back, hsegments, ?_, ?_, fun hstartFinite => ?_, hbefore, hbehind⟩
  · rw [← hinsert]
    exact isOf_insertAt hmap _ _
  · rw [List.append_cons]
    exact horder.insert hne hstart hbefore hbehind
  · rw [← hinsert]
    exact hvalid.insertIdx ⟨hstartFinite, hpositive, hfinite⟩ hnonneg hfree

/-- A tempo edit is local. A beat in front of it keeps its segment, its tempo and, where both maps
have one, its time under every rounding. With exact arithmetic all beats from the next segment on move
by the time that the new tempo gains or loses up to that segment. -/
theorem add_isLocal (hmap : IsOf ρ map.segments map) (hvalid : IsValid ρ map.segments)
    {start bpm : Number} {s : ℚ} (hstart : start.toRat? = some s)
    (hadd : add ρ map ⟨.number start, .number bpm⟩ = .ok map') :
    (∀ beat b, beat.toRat? = some b → 0 ≤ b → b < s →
      (∃ segment, map.segmentAt beat = .ok segment ∧ map'.segmentAt beat = .ok segment ∧
        (Operation.bpmAt (.number beat)).answer ρ map = .ok (.number segment.bpm) ∧
        (Operation.bpmAt (.number beat)).answer ρ map' = .ok (.number segment.bpm)) ∧
      ∀ seconds seconds', answerOf (secondsAt ρ beat) map = .ok seconds →
        answerOf (secondsAt ρ beat) map' = .ok seconds' → seconds' = seconds) ∧
    (ρ = .exact → ∀ next, map.segments.find? (start.lt ·.start) = some next →
      ∃ inForce p q t, map.segmentAt start = .ok inForce ∧ inForce.bpm.toRat? = some p ∧
        bpm.toRat? = some q ∧ next.start.toRat? = some t ∧
        ∀ beat b, beat.toRat? = some b → t ≤ b → ∃ seconds,
          IsExactly (answerOf (secondsAt .exact beat) map) seconds ∧
          IsExactly (answerOf (secondsAt .exact beat) map')
            (seconds + (t - s) * (60 / q - 60 / p))) := by
  obtain ⟨front, segment, back, hsegments, hmap', horder', hvalid', hbefore, hbehind⟩ :=
    exists_of_add_eq_ok hmap hvalid hstart hadd
  rw [hsegments] at hmap hvalid ⊢
  have horder := hvalid.ascending
  have hlater : ∀ later ∈ back, ∃ r, later.start.toRat? = some r :=
    fun later hmem => horder.finite later (by simp [hmem])
  refine ⟨fun beat b hbeat hb hlt => ?_, ?_⟩
  · -- The beat is in front of the new segment, and so of what was behind it before the edit.
    have hfront : beat.lt start = true := (Number.lt_iff hbeat hstart).2 hlt
    have hback : ∀ later ∈ back.head?, beat.lt later.start = true := fun later hhead => by
      have hmem := List.mem_of_mem_head? hhead
      obtain ⟨r, hr⟩ := hlater later hmem
      exact Number.lt_trans_of_toRat? hbeat hstart hr hfront (hbehind later hmem)
    rw [List.append_cons] at hmap hmap' horder horder'
    refine answers_eq_of_append (by simp) hmap hmap' horder horder' hbeat hb hback ?_
    rintro _ ⟨⟩
    exact hfront
  · rintro rfl next hnext
    have hvalid' := hvalid' (Number.checkFinite_exact hstart)
    have hrational := hvalid.toRat?_start
    have hnotBefore : ∀ earlier ∈ front ++ [segment], start.lt earlier.start = false :=
      fun earlier hearlier => Number.lt_eq_false_of_lt
        (hrational earlier (List.append_cons .. ▸ List.mem_append_left back hearlier)) hstart
        (hbefore earlier hearlier)
    -- The next segment is the first one behind the place of the new one.
    have hhead : back.head? = some next := by
      rw [List.append_cons] at hnext
      exact (find?_append_eq_head? hnotBefore hbehind).symm.trans hnext
    obtain ⟨back, rfl⟩ := List.head?_eq_some_iff.1 hhead
    have hchecked := (hvalid.checked segment (by simp)).isRational
    have hadded := (hvalid'.checked ⟨start, bpm⟩ (by simp)).isRational
    have hs : s = (Segment.exact ⟨start, bpm⟩).start :=
      Option.some.inj (hstart.symm.trans hadded.start)
    refine ⟨segment, _, _, _, ?_, hchecked.bpm, hadded.bpm, hrational next (by simp),
      fun beat b hbeat hb => ?_⟩
    · have hnonneg : 0 ≤ s := hs ▸ hvalid'.exact_start_nonneg ⟨start, bpm⟩ (by simp)
      refine (segmentAt_eq_fresh hmap start).trans
        (segmentAt_eq horder hstart hnonneg hnotBefore fun later hlater => ?_)
      exact hbehind later (List.mem_of_mem_head? hlater)
    · rw [hs]
      exact isExactly_secondsAt_insert hmap hmap' hvalid hvalid' hbeat hb

/-- A slower tempo from beat 8 on leaves beat 4 in its segment, and puts off beat 20 by what the
eight beats up to the next segment take longer. -/
theorem add_isLocal_twoTempos :
    let edited : TempoMap := fresh [⟨.int 0, .int 120⟩, ⟨.int 8, .int 60⟩, ⟨.int 16, .int 90⟩]
    IsOf .exact twoTempos.segments twoTempos ∧ IsValid .exact twoTempos.segments ∧
      add .exact twoTempos ⟨.int 8, .int 60⟩ = .ok edited ∧
      (∃ segment, twoTempos.segmentAt (.int 4) = .ok segment ∧
        edited.segmentAt (.int 4) = .ok segment) ∧
      ∃ seconds, IsExactly (answerOf (secondsAt .exact (.int 20)) twoTempos) seconds ∧
        IsExactly (answerOf (secondsAt .exact (.int 20)) edited)
          (seconds + (16 - 8) * (60 / 60 - 60 / 120)) := by
  intro edited
  have hbuilt : ofSegments .exact [⟨.int 0, .int 120⟩, ⟨.int 16, .int 90⟩] = .ok twoTempos := by
    decide +kernel
  have hadd : add .exact twoTempos ⟨.int 8, .int 60⟩ = .ok edited := by decide +kernel
  obtain ⟨hmap, hvalid⟩ := isValid_of_ofSegments hbuilt
  have hstart : (Number.int 8).toRat? = some 8 := rfl
  obtain ⟨hfront, hbehind⟩ := add_isLocal hmap hvalid hstart hadd
  obtain ⟨⟨segment, hold, hnew, -⟩, -⟩ := hfront (.int 4) 4 rfl (by norm_num) (by norm_num)
  obtain ⟨inForce, p, q, t, hinForce, hp, hq, ht, hmoved⟩ :=
    hbehind rfl ⟨.int 16, .int 90⟩ (by decide +kernel)
  obtain rfl : inForce = ⟨.int 0, .int 120⟩ := by
    have : twoTempos.segmentAt (.int 8) = .ok ⟨.int 0, .int 120⟩ := by decide +kernel
    exact Except.ok.inj (hinForce.symm.trans this)
  obtain rfl : p = 120 := Option.some.inj (hp.symm.trans rfl)
  obtain rfl : q = 60 := Option.some.inj (hq.symm.trans rfl)
  obtain rfl : t = 16 := Option.some.inj (ht.symm.trans rfl)
  obtain ⟨seconds, hseconds, hseconds'⟩ := hmoved (.int 20) 20 rfl (by norm_num)
  exact ⟨hmap, hvalid, hadd, ⟨segment, hold, hnew⟩, seconds, hseconds, hseconds'⟩

end TempoMap

end CueSheet
