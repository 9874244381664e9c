import CueSheet.Proofs.Tempo.Clock
import CueSheet.Proofs.Value.Same

/-!
# Segments with whole numbers where they are whole

A segment may be given by real numbers that are whole. Turning these into whole numbers changes no
quantity, so the segments make a tempo map as before (`TempoMap.IsValid.normalize`) and are the same
(`Segment.same_normalize`).
-/

namespace CueSheet

/-- An amount stays one. -/
theorem Number.IsAmount.normalize {x : Number} (h : x.IsAmount) : x.normalize.IsAmount := by
  obtain ⟨q, hq, hnonneg⟩ := h.nonneg
  exact ⟨isNumeric_normalize h.numeric, h.kept.normalize, q, by rw [toRat?_normalize, hq], hnonneg⟩

/-- An amount is equal to itself as a whole number. -/
theorem Number.IsAmount.eq_normalize {x : Number} (h : x.IsAmount) : x.eq x.normalize = true := by
  obtain ⟨q, hq, -⟩ := h.nonneg
  exact (eq_iff hq (by rw [toRat?_normalize, hq])).2 rfl

namespace Segment

variable {segment other : Segment Number}

/-- The segment with its quantities as whole numbers where they are whole. -/
def normalize (segment : Segment Number) : Segment Number := segment.map Number.normalize

/-- A segment of amounts is the same. -/
theorem same_normalize (h : segment.IsAmount) : segment.values.Same segment.normalize.values :=
  ⟨h.start.eq_normalize, h.bpm.eq_normalize⟩

/-- A segment of amounts is the same as itself. -/
theorem same_self (h : segment.IsAmount) : segment.values.Same segment.values := by
  obtain ⟨p, hp, -⟩ := h.start.nonneg
  obtain ⟨q, hq, -⟩ := h.bpm.nonneg
  exact ⟨(Number.eq_iff hp hp).2 rfl, (Number.eq_iff hq hq).2 rfl⟩

/-- A segment of amounts that is accepted is accepted with whole numbers. -/
theorem IsChecked.normalize (hamount : segment.IsAmount) (h : segment.IsChecked .binary64) :
    segment.normalize.IsChecked .binary64 := by
  obtain ⟨q, hq, -⟩ := hamount.bpm.nonneg
  refine ⟨hamount.start.normalize.checkFinite, ?_, hamount.bpm.normalize.checkFinite⟩
  show segment.bpm.normalize.isPositive = true
  rw [Number.isPositive_iff (by rw [Number.toRat?_normalize, hq])]
  exact (Number.isPositive_iff hq).1 h.isPositive

end Segment

/-- Segments of amounts that make a tempo map make one with whole numbers. -/
theorem TempoMap.IsValid.normalize {segments : List (Segment Number)}
    (hamounts : ∀ segment ∈ segments, segment.IsAmount) (h : IsValid .binary64 segments) :
    IsValid .binary64 (segments.map Segment.normalize) := by
  refine ⟨?_, List.forall_mem_map.2 fun segment hsegment =>
    (h.checked segment hsegment).normalize (hamounts segment hsegment), ?_⟩
  · obtain ⟨segment, hfirst, hzero⟩ := h.first
    obtain ⟨q, hq, -⟩ := (hamounts segment (List.mem_of_mem_head? hfirst)).start.nonneg
    refine ⟨segment.normalize, by rw [List.head?_map, Option.mem_def.1 hfirst]; rfl, ?_⟩
    have hnormal : segment.normalize.start.toRat? = some q :=
      (Number.toRat?_normalize segment.start).trans hq
    rw [Number.eq_iff hnormal (Number.toRat?_int 0)]
    exact (Number.eq_iff hq (Number.toRat?_int 0)).1 hzero
  · refine List.pairwise_map.2 (h.increasing.imp_of_mem fun {segment later} hsegment hlater hlt => ?_)
    obtain ⟨p, hp, -⟩ := (hamounts segment hsegment).start.nonneg
    obtain ⟨q, hq, -⟩ := (hamounts later hlater).start.nonneg
    have hp' : segment.normalize.start.toRat? = some p :=
      (Number.toRat?_normalize segment.start).trans hp
    have hq' : later.normalize.start.toRat? = some q :=
      (Number.toRat?_normalize later.start).trans hq
    exact (Number.lt_iff hp' hq').2 ((Number.lt_iff hp hq).1 hlt)

/-- A song whose tempo changes make a tempo map has them in effect. -/
theorem Song.segments_of_isValid {song : Song} {segments : List (Segment Number)}
    (hchanges : song.tempoChanges = segments.map Segment.values)
    (h : TempoMap.IsValid .binary64 segments) : song.segments = segments.map Segment.values := by
  obtain ⟨segment, hfirst, hzero⟩ := h.first
  have hstart : song.declaresStart = true := by
    rw [Song.declaresStart, hchanges, List.any_map]
    exact List.any_eq_true.2 ⟨segment, List.mem_of_mem_head? hfirst, hzero⟩
  rw [Song.segments, if_pos hstart, hchanges]

/-- A sound song whose segments in effect make a tempo map has the same segments in effect if they are
its tempo changes, with whole numbers where they are whole, or if it has no tempo changes at all. -/
theorem Song.exists_segments_normalize {song other : Song} (hsound : song.IsSound)
    {segments : List (Segment Number)} (hsegments : song.segments = segments.map Segment.values)
    (hvalid : TempoMap.IsValid .binary64 segments) (hbpm : other.bpm = song.bpm)
    (hchanges : other.tempoChanges =
      if song.tempoChanges = [] then [] else (segments.map Segment.normalize).map Segment.values) :
    ∃ others : List (Segment Number), other.segments = others.map Segment.values ∧
      TempoMap.IsValid .binary64 others ∧ List.Forall₂ Segment.Same song.segments other.segments := by
  have hamounts := hsound.isAmount_of_segments hsegments
  split_ifs at hchanges with hempty
  -- Without tempo changes the tempo alone is in effect, and with them they are all that is.
  · have hsame : other.segments = song.segments := by
      rw [Song.segments, Song.segments, Song.declaresStart, Song.declaresStart, hchanges, hempty, hbpm]
    refine ⟨segments, hsame.trans hsegments, hvalid, ?_⟩
    rw [hsame, hsegments, List.forall₂_map_left_iff, List.forall₂_map_right_iff, List.forall₂_same]
    exact fun segment hsegment => Segment.same_self (hamounts segment hsegment)
  · have hnormal := hvalid.normalize hamounts
    refine ⟨segments.map Segment.normalize, Song.segments_of_isValid hchanges hnormal, hnormal, ?_⟩
    rw [hsegments, Song.segments_of_isValid hchanges hnormal, List.forall₂_map_left_iff,
      List.forall₂_map_right_iff, List.forall₂_map_right_iff, List.forall₂_same]
    exact fun segment hsegment => Segment.same_normalize (hamounts segment hsegment)

end CueSheet
