import CueSheet.Proofs.Tempo.Edit

/-!
# Tempo edits commute

Segments with starts of their own can be added to a tempo map in any order. Every order leaves the same
map, and it is the one that all segments together make (`TempoMap.adds_commute`).

An edit puts its segment among the others, and it leaves room for the segments that are still to be
added (`TempoMap.leave_add_of_isNew`). So a run of edits ends with all segments, in order of their
starts, and there is only one such order (`Increasing.eq_of_perm`).
-/

namespace CueSheet

/-- There is only one list of given segments with finite starts that increase. -/
theorem Increasing.eq_of_perm {segments others : List (Segment Number)}
    (hfinite : ∀ segment ∈ segments, ∃ q, segment.start.toRat? = some q)
    (h : Increasing segments) (h' : Increasing others) (hperm : segments.Perm others) :
    segments = others := by
  refine List.Perm.eq_of_pairwise (fun x y hx hy hxy hyx => ?_) h h' hperm
  -- Two starts cannot both be before each other.
  obtain ⟨p, hp⟩ := hfinite x hx
  obtain ⟨q, hq⟩ := hfinite y (hperm.mem_iff.2 hy)
  exact absurd ((Number.lt_iff hp hq).1 hxy) ((Number.lt_iff hq hp).1 hyx).not_gt

namespace TempoMap

variable {ρ : Rounding} {map : TempoMap} {segments : List (Segment Number)}

/-- Segments that can be added to others: each of them makes sense, and their starts are different
from each other and from those of the others. -/
structure AreNew (ρ : Rounding) (segments added : List (Segment Number)) : Prop where
  /-- The starts are finite, and the tempos are finite and above zero. -/
  checked : ∀ segment ∈ added, segment.IsChecked ρ
  /-- No start is below zero. -/
  nonneg : ∀ segment ∈ added, segment.start.isNegative = false
  /-- The starts are different from each other. -/
  distinct : added.Pairwise fun segment other => segment.start.eq other.start = false
  /-- The starts are different from those that are there. -/
  free : ∀ segment ∈ added, ∀ other ∈ segments, other.start.eq segment.start = false

/-- New segments are new in any order. -/
theorem AreNew.perm {added order : List (Segment Number)} (h : AreNew ρ segments added)
    (hperm : order.Perm added) : AreNew ρ segments order where
  checked segment hsegment := h.checked segment (hperm.mem_iff.1 hsegment)
  nonneg segment hsegment := h.nonneg segment (hperm.mem_iff.1 hsegment)
  distinct := (hperm.pairwise_iff fun hne => (Number.eq_comm _ _).trans hne).2 h.distinct
  free segment hsegment := h.free segment (hperm.mem_iff.1 hsegment)

/-- A new segment has a place. -/
theorem AreNew.isFree {added : Segment Number} {rest : List (Segment Number)}
    (h : AreNew ρ segments (added :: rest)) : IsFree segments added.start := by
  unfold IsFree
  cases hfound : (segments.map (·.start))[boundary (·.lt added.start) (segments.map (·.start))]? with
  | none => rfl
  | some start =>
    obtain ⟨other, hother, rfl⟩ := List.mem_map.1 (List.mem_of_getElem? hfound)
    exact h.free added List.mem_cons_self other hother

/-- New segments are still new when the first of them has been put among the others. -/
theorem AreNew.tail {added : Segment Number} {rest others : List (Segment Number)}
    (h : AreNew ρ segments (added :: rest)) (hothers : others.Perm (added :: segments)) :
    AreNew ρ others rest where
  checked segment hsegment := h.checked segment (List.mem_cons_of_mem _ hsegment)
  nonneg segment hsegment := h.nonneg segment (List.mem_cons_of_mem _ hsegment)
  distinct := (List.pairwise_cons.1 h.distinct).2
  free segment hsegment other hother := by
    rcases List.mem_cons.1 (hothers.mem_iff.1 hother) with rfl | hother
    · exact (List.pairwise_cons.1 h.distinct).1 segment hsegment
    · exact h.free segment (List.mem_cons_of_mem _ hsegment) other hother

/-- Adding a new segment to a valid tempo map succeeds, leaves a valid one with that segment more, and
leaves the segments new that are still to be added. -/
theorem leave_add_of_isNew (hmap : IsOf ρ map.segments map) (hvalid : IsValid ρ map.segments)
    {added : Segment Number} {rest : List (Segment Number)}
    (hnew : AreNew ρ map.segments (added :: rest)) :
    let left := (Operation.add added.values).leave ρ map
    ¬Fails ((Operation.add added.values).answer ρ map) ∧ IsOf ρ left.segments left ∧
      IsValid ρ left.segments ∧ left.segments.Perm (added :: map.segments) ∧
      AreNew ρ left.segments rest := by
  intro left
  have hchecked := hnew.checked added List.mem_cons_self
  have hnonneg := hnew.nonneg added List.mem_cons_self
  -- The new segment passes the checks of an edit, and its beat is free.
  have hplace : place ρ map.starts added.values =
      .ok (boundary (·.lt added.start) map.starts, added) := by
    refine place_eq_ok_iff.2 ⟨added, ?_, rfl, hnonneg, hmap.starts_eq ▸ hnew.isFree, rfl⟩
    exact checkTempo_eq_ok_iff.2 ⟨rfl, hchecked.isPositive, hchecked.bpm⟩
  have hsegments : left.segments =
      map.segments.insertIdx (boundary (·.lt added.start) (map.segments.map (·.start))) added := by
    rw [segments_leave_add, hplace, hmap.starts_eq]
  have hperm : left.segments.Perm (added :: map.segments) := by
    rw [hsegments]
    refine List.perm_insertIdx _ _ ?_
    exact (boundary_le_length _ _).trans_eq (List.length_map _)
  refine ⟨?_, isOf_leave hmap _, ?_, hperm, hnew.tail hperm⟩
  · rw [Operation.answer, run_add, hplace]
    exact not_fails_ok _
  · rw [hsegments]
    exact hvalid.insertIdx hchecked hnonneg hnew.isFree

/-- Adding new segments to a valid tempo map succeeds, and leaves a valid one of all segments. -/
theorem leaveAll_adds_of_areNew (hmap : IsOf ρ map.segments map) (hvalid : IsValid ρ map.segments)
    {added : List (Segment Number)} (hnew : AreNew ρ map.segments added) :
    let adds := added.map fun segment => Operation.add segment.values
    let left := leaveAll ρ map adds
    (∀ answer ∈ runAll ρ map adds, ¬Fails answer) ∧ IsOf ρ left.segments left ∧
      IsValid ρ left.segments ∧ left.segments.Perm (map.segments ++ added) := by
  induction added generalizing map with
  | nil => exact ⟨nofun, hmap, hvalid, by rw [List.append_nil]; exact .refl _⟩
  | cons segment added ih =>
    obtain ⟨hanswer, hmap', hvalid', hperm, hrest⟩ := leave_add_of_isNew hmap hvalid hnew
    obtain ⟨hanswers, hleft, hleftValid, hleftPerm⟩ := ih hmap' hvalid' hrest
    refine ⟨List.forall_mem_cons.2 ⟨hanswer, hanswers⟩, hleft, hleftValid, hleftPerm.trans ?_⟩
    exact (hperm.append_right added).trans List.perm_middle.symm

/-- Tempo edits commute. New segments are added to a valid tempo map in every order; every order ends
with the segments of the map and the new ones, sorted by their starts; and the tempo map of these
segments is the one that is left. -/
theorem adds_commute (hmap : IsOf ρ map.segments map) (hvalid : IsValid ρ map.segments)
    {added : List (Segment Number)} (hnew : AreNew ρ map.segments added) :
    ∃ sorted, sorted.Perm (map.segments ++ added) ∧ Increasing sorted ∧
      ∀ order : List (Segment Number), order.Perm added →
        let adds := order.map fun segment => Operation.add segment.values
        (∀ answer ∈ runAll ρ map adds, ¬Fails answer) ∧
          (leaveAll ρ map adds).segments = sorted ∧
          ofSegments ρ (sorted.map Segment.values) = .ok (leaveAll ρ map adds).forgetOffsets := by
  obtain ⟨-, -, hsorted, hperm⟩ := leaveAll_adds_of_areNew hmap hvalid hnew
  refine ⟨_, hperm, hsorted.increasing, fun order horder => ?_⟩
  obtain ⟨hanswers, hleft, hleftValid, hleftPerm⟩ :=
    leaveAll_adds_of_areNew hmap hvalid (hnew.perm horder)
  -- Both orders end with all segments in order of their starts.
  have hsame := hleftValid.increasing.eq_of_perm hleftValid.ascending.finite hsorted.increasing
    (hleftPerm.trans ((horder.append_left map.segments).trans hperm.symm))
  refine ⟨hanswers, hsame, ofSegments_eq_ok_iff.2 ⟨_, rfl, hsorted, ?_⟩⟩
  rw [← hsame, forgetOffsets, hleft.starts_eq]
  rfl

/-- Two segments between and behind those of the map come to the same segments in both orders. -/
theorem adds_commute_twoTempos :
    let added : List (Segment Number) := [⟨.real (.finite (33 / 2)), .int 60⟩, ⟨.int 8, .int 100⟩]
    AreNew .binary64 twoTempos.segments added ∧
      ∃ sorted, sorted.Perm (twoTempos.segments ++ added) ∧ Increasing sorted ∧
        (leaveAll .binary64 twoTempos
          (added.map fun segment => Operation.add segment.values)).segments = sorted ∧
        (leaveAll .binary64 twoTempos
          (added.reverse.map fun segment => Operation.add segment.values)).segments = sorted := by
  intro added
  have hbuilt : ofSegments .binary64 [⟨.int 0, .int 120⟩, ⟨.int 16, .int 90⟩] = .ok twoTempos := by
    decide +kernel
  obtain ⟨hmap, hvalid⟩ := isValid_of_ofSegments hbuilt
  have hnew : AreNew .binary64 twoTempos.segments added := by
    refine ⟨fun segment hsegment => ?_, by decide +kernel, by decide +kernel, by decide +kernel⟩
    rcases List.mem_pair.1 hsegment with rfl | rfl <;>
      exact ⟨by decide +kernel, by decide +kernel, by decide +kernel⟩
  obtain ⟨sorted, hperm, hsorted, horders⟩ := adds_commute hmap hvalid hnew
  exact ⟨hnew, sorted, hperm, hsorted, (horders added (.refl _)).2.1,
    (horders added.reverse (List.reverse_perm added)).2.1⟩

end TempoMap

end CueSheet
