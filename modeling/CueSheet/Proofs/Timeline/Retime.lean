import CueSheet.Proofs.Tempo.Edit
import CueSheet.Proofs.Tempo.Inverse
import CueSheet.Proofs.Timeline.Sorted

/-!
# Another tempo map changes seconds only

The walk through a song does not look at a tempo map, and neither does the order of its entries. So
the events of a song on two tempo maps differ in their seconds alone, and these are what each map
answers for the beats (`Timeline.schedule_retimed`).

The events stand in order of their beats. With exact arithmetic they stand in order of their seconds
and of their video frames too (`NeverGoesBack`): no walk leaves the numbers from zero on
(`Timeline.lands_exact`), on these a tempo map does not go back (`TempoMap.exists_clock`), and the
nearest frame of a time is a floor (`secondsToFrame_exact`).
-/

namespace CueSheet

/-! ## Frames -/

/-- The nearest frame of a time is the floor of half a frame more. -/
theorem secondsToFrame_exact {seconds fps : Number} {s φ : ℚ} (hs : seconds.toRat? = some s)
    (hsnonneg : 0 ≤ s) (hfps : fps.toRat? = some φ) (hφ : 0 ≤ φ) :
    secondsToFrame .exact (.number seconds) (.number fps) = .ok ⌊s * φ + 1 / 2⌋ := by
  obtain ⟨frames, hframes, hproduct⟩ := Number.isExactly_mul hs hfps
  obtain ⟨later, hlater, hsum⟩ :=
    Number.isExactly_add (y := .real (Rounding.exact (1 / 2))) (q := 1 / 2) hproduct rfl
  have hplus : (Value.number frames).plus .exact (Rounding.exact (1 / 2)) = .ok later := hlater
  have hnonneg : 0 ≤ s * φ + 1 / 2 := by positivity
  rw [secondsToFrame, Value.mul_number, hframes, Except.map, ok_bind, hplus, ok_bind]
  exact Number.truncate_eq_floor hsum hnonneg

/-- The record of an event at a frame rate tells a frame. -/
def Event.HasFrame (fps : Number) (event : Event) (frame : ℤ) : Prop :=
  ∃ record, (event.map Value.number).toValue .exact (some (.number fps)) = .ok record ∧
    record.get "frame" = .int frame

/-- The frame of an event is the nearest one of its time. -/
theorem Event.hasFrame_exact {event : Event} {fps : Number} {s φ : ℚ}
    (hs : event.seconds.toRat? = some s) (hsnonneg : 0 ≤ s) (hfps : fps.toRat? = some φ)
    (hφ : 0 ≤ φ) : event.HasFrame fps ⌊s * φ + 1 / 2⌋ := by
  have hframe : secondsToFrame .exact (event.map Value.number).seconds (.number fps) =
      .ok ⌊s * φ + 1 / 2⌋ := secondsToFrame_exact hs hsnonneg hfps hφ
  unfold HasFrame toValue
  dsimp only
  rw [hframe]
  exact ⟨_, rfl, rfl⟩

/-- Neither the times of events nor their frames at any frame rate go back. -/
structure NeverGoesBack (events : List Event) : Prop where
  /-- The times do not. -/
  seconds : events.Pairwise fun first second => first.seconds.le second.seconds = true
  /-- The frames do not. -/
  frames : ∀ (fps : Number) (φ : ℚ), fps.toRat? = some φ → 0 < φ →
    ∃ frames, List.Forall₂ (Event.HasFrame fps) events frames ∧ frames.Pairwise (· ≤ ·)

/-- If the times of events do not go back from zero on, then the frames do not either. -/
theorem neverGoesBack_of_seconds {events : List Event}
    (htime : ∀ event ∈ events, event.seconds.IsTime)
    (hseconds : events.Pairwise fun first second => first.seconds.le second.seconds = true) :
    NeverGoesBack events where
  seconds := hseconds
  frames fps φ hfps hφ := by
    have hvalue : ∀ event ∈ events, ∃ s, event.seconds.toRat? = some s ∧ 0 ≤ s ∧
        event.seconds.toRat?.getD 0 = s := fun event hevent => by
      obtain ⟨s, hs, hnonneg⟩ := htime event hevent
      exact ⟨s, hs, hnonneg, by rw [hs]; rfl⟩
    refine ⟨events.map fun event => ⌊event.seconds.toRat?.getD 0 * φ + 1 / 2⌋, ?_, ?_⟩
    · rw [List.forall₂_map_right_iff, List.forall₂_same]
      intro event hevent
      obtain ⟨s, hs, hnonneg, hsame⟩ := hvalue event hevent
      rw [hsame]
      exact Event.hasFrame_exact hs hnonneg hfps hφ.le
    · rw [List.pairwise_map]
      refine hseconds.imp_of_mem fun {first second} hfirst hsecond hle => ?_
      obtain ⟨s, hs, -, hsame⟩ := hvalue first hfirst
      obtain ⟨t, ht, -, hsame'⟩ := hvalue second hsecond
      rw [Number.le_iff hs ht] at hle
      rw [hsame, hsame']
      gcongr

/-! ## Exact walks -/

namespace Timeline

variable {maxRepeat : ℤ} {song : Song} {map map' : TempoMap}
  {segments : List (Segment Number)} {events events' : List Event}

/-- With exact arithmetic all beats are real numbers of at least zero. -/
theorem lands_exact : Lands .exact Number.IsSpan where
  toReal n r hn h := by
    obtain rfl := Except.ok.inj h
    exact ⟨n, rfl, Int.cast_nonneg hn⟩
  span _ := id
  mul _ _ _ _ hr hp hs hq :=
    ⟨_, _, rfl, Extended.toRat?_mul_exact hr hs, mul_nonneg hp hq⟩
  add := by
    rintro _ _ z ⟨r, p, rfl, hr, hp⟩ ⟨s, q, rfl, hs, hq⟩ h
    obtain rfl := Except.ok.inj h
    exact ⟨_, _, rfl, Extended.toRat?_add_exact hr hs, add_nonneg hp hq⟩

/-- With exact arithmetic the events of a song do not go back. -/
theorem neverGoesBack_of_schedule (hmap : TempoMap.IsOf .exact map.segments map)
    (hvalid : TempoMap.IsValid .exact map.segments)
    (h : schedule .exact maxRepeat.toNat map song = .ok events) : NeverGoesBack events := by
  obtain ⟨clock, hzero, hclock, htimes⟩ := TempoMap.exists_clock hmap hvalid
  obtain ⟨w, hwalk, huntimed⟩ := exists_untimed_of_schedule hmap h
  have hspans := lands_exact.walk hwalk
  have hordered := pairwise_of_untimed huntimed
    (pairwise_sorted fun happening hmem => (hspans happening hmem).isPoint)
  have hbeats : ∀ event ∈ events, event.beats.IsSpan := by
    have hall : ∀ told ∈ (sorted (entries w)).map untimed, told.1.IsSpan :=
      List.forall_mem_map.2 ((forall_sorted_iff (P := Number.IsSpan) w).2 hspans)
    rw [← huntimed, List.forall_mem_map] at hall
    exact hall
  -- Each time is that of the clock at the beat.
  have hseconds : ∀ event ∈ events, ∃ b, event.beats.toRat? = some b ∧ 0 ≤ b ∧
      event.seconds.toRat? = some (clock b) := by
    intro event hevent
    obtain ⟨r, b, hreal, hb, hnonneg⟩ := hbeats event hevent
    have hbeat : event.beats.toRat? = some b := by rw [hreal]; exact hb
    obtain ⟨seconds, hanswer, hvalue⟩ := htimes event.beats b hbeat hnonneg
    have hsame := hanswer.symm.trans (secondsAt_of_schedule hmap h event hevent)
    exact ⟨b, hbeat, hnonneg, Except.ok.inj hsame ▸ hvalue⟩
  refine neverGoesBack_of_seconds (fun event hevent => ?_) ?_
  · obtain ⟨b, -, hb, hvalue⟩ := hseconds event hevent
    exact ⟨_, hvalue, hzero ▸ hclock Set.self_mem_Ici hb hb⟩
  · refine hordered.imp_of_mem fun {first second} hfirst hsecond hbefore => ?_
    obtain ⟨b, hb, hbnonneg, hvalue⟩ := hseconds first hfirst
    obtain ⟨c, hc, hcnonneg, hvalue'⟩ := hseconds second hsecond
    rw [Number.lt_iff hb hc, Number.eq_iff hb hc] at hbefore
    rw [Number.le_iff hvalue hvalue']
    refine hclock hbnonneg hcnonneg ?_
    rcases hbefore with hlt | ⟨heq, -⟩
    · exact hlt.le
    · exact heq.le

/-- With exact arithmetic a song with a walk has events on every tempo map. -/
theorem exists_schedule_exact (hmap : TempoMap.IsOf .exact segments map)
    (hvalid : TempoMap.IsValid .exact segments) {w : Walk}
    (hwalk : walk .exact maxRepeat.toNat song = .ok w) :
    ∃ events, schedule .exact maxRepeat.toNat map song = .ok events := by
  refine not_fails_iff.1 ((not_fails_schedule_iff hmap).2 ⟨w, hwalk, fun happening hmem => ?_⟩)
  obtain ⟨r, b, hreal, hb, hnonneg⟩ := lands_exact.walk hwalk happening hmem
  obtain ⟨clock, -, -, htimes⟩ :=
    TempoMap.exists_clock (TempoMap.isOf_fresh .exact segments) hvalid
  obtain ⟨seconds, hseconds, -⟩ := htimes happening.1 b (by rw [hreal]; exact hb) hnonneg
  exact not_fails_iff.2 ⟨seconds, hseconds⟩

/-- The events of a song on two tempo maps are on the same beats, with the same kinds and details,
and their seconds are what each tempo map answers for the beats. With exact arithmetic neither list
goes back in time, and neither goes back to an earlier frame. -/
theorem schedule_retimed {ρ : Rounding} (hmap : TempoMap.IsOf ρ map.segments map)
    (hvalid : TempoMap.IsValid ρ map.segments) (hmap' : TempoMap.IsOf ρ map'.segments map')
    (hvalid' : TempoMap.IsValid ρ map'.segments)
    (h : schedule ρ maxRepeat.toNat map song = .ok events)
    (h' : schedule ρ maxRepeat.toNat map' song = .ok events') :
    List.Forall₂ (fun event event' => event.beats = event'.beats ∧ event.kind = event'.kind ∧
      event.payload = event'.payload) events events' ∧
    (∀ event ∈ events,
      TempoMap.answerOf (TempoMap.secondsAt ρ event.beats) map = .ok event.seconds) ∧
    (∀ event ∈ events',
      TempoMap.answerOf (TempoMap.secondsAt ρ event.beats) map' = .ok event.seconds) ∧
    (ρ = .exact → NeverGoesBack events ∧ NeverGoesBack events') := by
  obtain ⟨w, hwalk, huntimed⟩ := exists_untimed_of_schedule hmap h
  obtain ⟨w', hwalk', huntimed'⟩ := exists_untimed_of_schedule hmap' h'
  obtain rfl := Except.ok.inj (hwalk.symm.trans hwalk')
  refine ⟨?_, secondsAt_of_schedule hmap h, secondsAt_of_schedule hmap' h', ?_⟩
  · have hsame := List.forall₂_eq_eq_eq ▸ huntimed.trans huntimed'.symm
    rw [List.forall₂_map_left_iff, List.forall₂_map_right_iff] at hsame
    exact hsame.imp fun _ _ heq => by simpa using heq
  · rintro rfl
    exact ⟨neverGoesBack_of_schedule hmap hvalid h, neverGoesBack_of_schedule hmap' hvalid' h'⟩

/-- On a constant tempo and on one that changes, the events of the song are on the same beats, and
neither goes back in time. -/
theorem schedule_retimed_lateFirst :
    ∃ map map' events events', TempoMap.ofSegments .exact [⟨.int 0, .int 120⟩] = .ok map ∧
      TempoMap.ofSegments .exact [⟨.int 0, .int 60⟩, ⟨.int 1, .int 90⟩] = .ok map' ∧
      schedule .exact (8 : ℤ).toNat map lateFirst = .ok events ∧
      schedule .exact (8 : ℤ).toNat map' lateFirst = .ok events' ∧
      events.map (·.beats) = events'.map (·.beats) ∧
      NeverGoesBack events ∧ NeverGoesBack events' := by
  have hbuilt : TempoMap.ofSegments .exact [⟨.int 0, .int 120⟩] =
      .ok (TempoMap.fresh [⟨.int 0, .int 120⟩]) := by decide +kernel
  have hbuilt' : TempoMap.ofSegments .exact [⟨.int 0, .int 60⟩, ⟨.int 1, .int 90⟩] =
      .ok (TempoMap.fresh [⟨.int 0, .int 60⟩, ⟨.int 1, .int 90⟩]) := by decide +kernel
  have hwalk : walk .exact (8 : ℤ).toNat lateFirst =
      .ok ⟨.real (.finite 2), lateFirstHappenings⟩ := by decide +kernel
  obtain ⟨hmap, hvalid⟩ := TempoMap.isValid_of_ofSegments hbuilt
  obtain ⟨hmap', hvalid'⟩ := TempoMap.isValid_of_ofSegments hbuilt'
  obtain ⟨events, hevents⟩ := exists_schedule_exact hmap hvalid hwalk
  obtain ⟨events', hevents'⟩ := exists_schedule_exact hmap' hvalid' hwalk
  obtain ⟨hsame, -, -, hexact⟩ := schedule_retimed hmap hvalid hmap' hvalid' hevents hevents'
  refine ⟨_, _, events, events', hbuilt, hbuilt', hevents, hevents', ?_, hexact rfl⟩
  rw [← List.forall₂_eq_eq_eq, List.forall₂_map_left_iff, List.forall₂_map_right_iff]
  exact hsame.imp fun _ _ heq => heq.1

end Timeline

end CueSheet
