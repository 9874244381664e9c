import CueSheet.Proofs.Tempo.Cache
import CueSheet.Proofs.Tempo.Fit
import CueSheet.Proofs.Timeline.Walk

/-!
# Where schedules are finite

The events of a song are the happenings of its walk, sorted by their beats and timed against a tempo
map. `Timeline.exists_schedule_iff` says when there are events and all of their points in time are
finite: exactly if the cues fit, and in the walk without a greatest magnitude each beat is below it
and has a time that fits.
-/

namespace CueSheet

/-- The beat and the time of an event are finite and at least zero. -/
def Event.IsTimed (event : Event) : Prop := event.beats.IsTime ∧ event.seconds.IsTime

/-- The song can be scheduled against segments. -/
structure Song.Schedulable (maxRepeat : ℕ) (segments : List (Segment Number)) (song : Song) :
    Prop where
  /-- No cue holds a whole number that is beyond the real numbers. -/
  cues : ∀ part ∈ song.sections, ∀ item ∈ part.items, item.Fits maxRepeat
  /-- Each beat of the unlimited walk is below the greatest magnitude and has a time that fits. -/
  times : ∀ walk, Timeline.walk .unlimited maxRepeat song = .ok walk →
    ∀ happening ∈ walk.happenings,
      happening.1.IsBelow ∧ TempoMap.TimeFits segments happening.1

namespace Timeline

variable {ρ : Rounding} {segments : List (Segment Number)}

/-! ## Events of entries -/

/-- The event of an entry at a time. -/
def eventAt (entry : Entry) (seconds : Number) : Event :=
  ⟨entry.beat, seconds, entry.happening.kind,
    entry.happening.details ++ [("order", .int entry.order)]⟩

/-- Timing an entry gives its event at the time of its beat. -/
theorem time_eq (ρ : Rounding) (entry : Entry) :
    time ρ entry = TempoMap.secondsAt ρ entry.beat >>= fun seconds => pure (eventAt entry seconds) :=
  rfl

/-- Timed one after the other, entries have the times that they have alone. -/
theorem run_times {entries : List Entry} {map : TempoMap} (hmap : TempoMap.IsOf ρ segments map) :
    ((entries.mapM (time ρ)).run.run map).1 = entries.mapM fun entry =>
      TempoMap.answerOf (TempoMap.secondsAt ρ entry.beat) (TempoMap.fresh segments) >>=
        fun seconds => .ok (eventAt entry seconds) := by
  induction entries generalizing map with
  | nil => rfl
  | cons entry entries ih =>
    obtain ⟨map', hmap', hrun⟩ := (TempoMap.steady_secondsAt ρ segments entry.beat).exists_run hmap
    rw [List.mapM_cons, List.mapM_cons, time_eq, bind_assoc, TempoM.run_bind, hrun, ← ih hmap']
    cases TempoMap.answerOf (TempoMap.secondsAt ρ entry.beat) (TempoMap.fresh segments) with
    | error => rfl
    | ok seconds =>
      dsimp only
      rw [pure_bind, TempoM.run_bind]
      rcases (entries.mapM (time ρ)).run.run map' with ⟨_ | _, _⟩ <;> rfl

/-- Alone, a beat of at least zero has the time of a walk along the segments. -/
theorem answerOf_secondsAt {beat : Number} (horder : Ascending segments) (hbeat : beat.IsTime) :
    TempoMap.answerOf (TempoMap.secondsAt ρ beat) (TempoMap.fresh segments) =
      TempoMap.timeOf ρ segments beat := by
  obtain ⟨q, hq, hnonneg⟩ := hbeat
  obtain ⟨map', -, hrun⟩ :=
    TempoMap.run_secondsAt (TempoMap.isOf_fresh ρ segments) horder hq hnonneg
  rw [TempoMap.answerOf, hrun]

/-- The events of entries stand beside the entries. -/
theorem forall₂_of_run {entries : List Entry} {map : TempoMap} {events : List Event}
    (hmap : TempoMap.IsOf ρ segments map)
    (h : ((entries.mapM (time ρ)).run.run map).1 = .ok events) :
    List.Forall₂ (fun entry event => ∃ seconds,
      TempoMap.answerOf (TempoMap.secondsAt ρ entry.beat) (TempoMap.fresh segments) = .ok seconds ∧
        event = eventAt entry seconds) entries events := by
  rw [run_times hmap, mapM_eq_ok_iff] at h
  refine h.imp fun entry event hevent => ?_
  obtain ⟨seconds, hseconds, hevent⟩ := bind_eq_ok.1 hevent
  exact ⟨seconds, hseconds, (Except.ok.inj hevent).symm⟩

/-! ## Finite schedules -/

/-- The beats of the sorted entries of a walk are those of its happenings. -/
theorem forall_sorted_iff {P : Number → Prop} (walk : Walk) :
    (∀ entry ∈ sorted (entries walk), P entry.beat) ↔
      ∀ happening ∈ walk.happenings, P happening.1 := by
  have hbeats : (entries walk).map (·.beat) = walk.happenings.map (·.1) := by
    conv_rhs => rw [← List.zipIdx_map_fst 0 walk.happenings]
    rw [entries, List.map_map, List.map_map]
    rfl
  unfold sorted
  simp only [List.mem_mergeSort]
  rw [← List.forall_mem_map (f := fun entry : Entry => entry.beat), hbeats, List.forall_mem_map]

/-- A real number is a time once it is clipped if it was below the greatest magnitude. -/
theorem isTime_iff_isBelow {x y : Number} (h : x.Clips y) : y.IsTime ↔ x.IsBelow := by
  obtain ⟨u, v, rfl, rfl, hclips⟩ := h
  rw [show (Number.real u).IsBelow ↔ u.IsBelow from Iff.rfl, ← hclips.isFinite_iff]
  cases hclips with
  | below hx hq => exact iff_of_true ⟨_, hx, hq⟩ ((Extended.isFinite_iff_toRat? _).2 ⟨_, hx⟩)
  | beyond => exact iff_of_false (by rintro ⟨r, ⟨⟩, -⟩) Bool.false_ne_true

/-- Beats that are times once they are clipped were below the greatest magnitude. -/
theorem BeatsClip.forall_isTime_iff {α : Type} {xs ys : List (Number × α)} (h : BeatsClip xs ys) :
    (∀ y ∈ ys, y.1.IsTime) ↔ ∀ x ∈ xs, x.1.IsBelow := by
  induction h with
  | nil => simp
  | cons hfirst hrest ih =>
    rw [List.forall_mem_cons, List.forall_mem_cons, ih, isTime_iff_isBelow hfirst.1]

/-- Beats that are below the greatest magnitude are left as they are, and are amounts. -/
theorem BeatsClip.eq_of_isBelow {α : Type} {xs ys : List (Number × α)} (h : BeatsClip xs ys)
    (hbelow : ∀ x ∈ xs, x.1.IsBelow) :
    ys = xs ∧ ∀ x ∈ xs, ∃ y : Extended, x.1 = .real y ∧ x.1.IsAmount := by
  induction h with
  | nil => simp
  | @cons x y xs ys hfirst hrest ih =>
    rw [List.forall_mem_cons] at hbelow ⊢
    obtain ⟨rfl, hamounts⟩ := ih hbelow.2
    obtain ⟨⟨u, v, hu, hv, hclips⟩, hsame⟩ := hfirst
    have hbelow : u.IsBelow := by
      have := hbelow.1
      rwa [hu] at this
    obtain rfl := hclips.eq_of_isBelow hbelow
    refine ⟨?_, ⟨v, hu, ?_⟩, hamounts⟩
    · rw [show y = x from Prod.ext (hv.trans hu.symm) hsame.symm]
    · rw [hu]
      cases hclips with
      | below hx hq hkept => exact ⟨rfl, hkept, _, hx, hq⟩

/-- There are events with finite points in time exactly if there is a walk, its beats are finite, and
so are their times. -/
theorem exists_schedule_iff_of_walk {maxRepeat : ℕ} {map : TempoMap} {song : Song} {w : Walk}
    (hmap : TempoMap.IsOf .binary64 segments map) (horder : InOrder segments)
    (hwalk : walk .binary64 maxRepeat song = .ok w) :
    (∃ events, schedule .binary64 maxRepeat map song = .ok events ∧
        ∀ event ∈ events, event.IsTimed) ↔
      ∀ happening ∈ w.happenings, happening.1.IsTime ∧
        ∃ seconds, TempoMap.timeOf .binary64 segments happening.1 = .ok seconds ∧
          seconds.IsTime := by
  have hsorted := forall_sorted_iff (P := fun beat => beat.IsTime ∧
    ∃ seconds, TempoMap.timeOf .binary64 segments beat = .ok seconds ∧ seconds.IsTime) w
  rw [schedule, hwalk, ok_bind, ← hsorted]
  constructor
  · rintro ⟨events, hevents, htimed⟩ entry hentry
    obtain ⟨event, hevent, seconds, hseconds, rfl⟩ :=
      exists_of_mem_left (forall₂_of_run hmap hevents) hentry
    obtain ⟨hbeat, htime⟩ : entry.beat.IsTime ∧ seconds.IsTime := htimed _ hevent
    rw [answerOf_secondsAt horder.ascending hbeat] at hseconds
    exact ⟨hbeat, seconds, hseconds, htime⟩
  · intro hall
    rw [run_times hmap]
    refine exists_mapM_iff.2 fun entry hentry => ?_
    obtain ⟨hbeat, seconds, hseconds, htime⟩ := hall entry hentry
    refine ⟨eventAt entry seconds, ?_, hbeat, htime⟩
    rw [answerOf_secondsAt horder.ascending hbeat, hseconds, ok_bind]

/-- A song whose items can stand in a document has events with finite points in time exactly if it
can be scheduled. -/
theorem exists_schedule_iff {maxRepeat : ℕ} {map : TempoMap} {song : Song}
    (hplain : ∀ part ∈ song.sections, ∀ item ∈ part.items, item.IsPlain)
    (hmap : TempoMap.IsOf .binary64 segments map) (horder : InOrder segments) :
    (∃ events, schedule .binary64 maxRepeat map song = .ok events ∧
        ∀ event ∈ events, event.IsTimed) ↔
      song.Schedulable maxRepeat segments := by
  obtain ⟨w, w', hunlimited, hclips, hok, hfails⟩ := shadows_walk hplain maxRepeat
  by_cases hcues : ∀ part ∈ song.sections, ∀ item ∈ part.items, item.Fits maxRepeat
  · rw [exists_schedule_iff_of_walk hmap horder (hok hcues)]
    constructor
    · -- All beats are below the limit, so both walks are the same.
      intro h
      have hbelow := hclips.happenings.forall_isTime_iff.1 fun y hy => (h y hy).1
      obtain ⟨hsame, hamounts⟩ := hclips.happenings.eq_of_isBelow hbelow
      rw [hsame] at h
      refine ⟨hcues, fun walk hwalk x hx => ⟨?_, ?_⟩⟩
      · obtain rfl := Except.ok.inj (hunlimited.symm.trans hwalk)
        exact hbelow x hx
      · obtain rfl := Except.ok.inj (hunlimited.symm.trans hwalk)
        obtain ⟨y, hy, hamount⟩ := hamounts x hx
        have htime := (h x hx).2
        rw [hy] at hamount htime ⊢
        exact (TempoMap.isTime_iff horder hamount).1 htime
    · intro h
      have htimes := h.times w hunlimited
      have hbelow : ∀ x ∈ w.happenings, x.1.IsBelow := fun x hx => (htimes x hx).1
      obtain ⟨hsame, hamounts⟩ := hclips.happenings.eq_of_isBelow hbelow
      rw [hsame]
      intro x hx
      obtain ⟨y, hy, hamount⟩ := hamounts x hx
      obtain ⟨q, hq⟩ := hamount.nonneg
      have hfits := (htimes x hx).2
      rw [hy] at hamount hfits hq ⊢
      exact ⟨⟨q, hq⟩, (TempoMap.isTime_iff horder hamount).2 hfits⟩
  · -- A cue that does not fit stops the walk.
    obtain ⟨fault, hfault⟩ := hfails hcues
    refine iff_of_false ?_ fun h => hcues h.cues
    rintro ⟨events, hevents, -⟩
    rw [schedule, hfault] at hevents
    cases hevents

end Timeline

end CueSheet
