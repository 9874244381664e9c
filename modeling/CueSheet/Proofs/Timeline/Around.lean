import CueSheet.Proofs.Timeline.Append

/-!
# Walks around items in the middle

A walk through a song can be cut at any items in the middle of a section: what is in front of them,
the items themselves, and what is behind them are walked through one after the other, and each part
knows of the parts before it only where they leave the cursor (`walkSections_around`). So two songs
that differ in these items alone have walks with the same front, and with the same back if both
leave the cursor at the same beat.

From a walk to its events it is enough to know that each sorted entry has an event at the time that
the tempo map answers for its beat (`schedule_eq_ok_iff`).
-/

namespace CueSheet.Timeline

variable {ρ : Rounding} {limit : ℕ}

/-! ## Walks -/

/-- A walk through items goes on from where the walk through those in front leaves the cursor. -/
theorem walkItems_append (sectionId : String) (cursor : Number) (items more : List Item) :
    walkItems ρ limit sectionId cursor (items ++ more) = (do
      let first ← walkItems ρ limit sectionId cursor items
      return first.append (← walkItems ρ limit sectionId first.cursor more)) := by
  induction items generalizing cursor with
  | nil => simp [walkItems, Walk.append]
  | cons item items ih =>
    rw [List.cons_append, walkItems, walkItems]
    simp only [ih, bind_assoc, pure_bind, Walk.append_assoc]
    rfl

/-- A walk through one item is the walk through the item. -/
theorem walkItems_singleton (sectionId : String) (cursor : Number) (item : Item) :
    walkItems ρ limit sectionId cursor [item] = walkItem ρ limit sectionId cursor item := by
  simp [walkItems, Walk.append]

/-- A walk through sections, cut at items in the middle of one of them. -/
theorem walkSections_around (cursor : Number) (before after : List Section) (part : Section)
    (first middle rest : List Item) :
    walkSections ρ limit cursor
        (before ++ { part with items := first ++ (middle ++ rest) } :: after) = (do
      let front ← walkSections ρ limit cursor (before ++ [{ part with items := first }])
      let own ← walkItems ρ limit part.id front.cursor middle
      let others ← walkItems ρ limit part.id own.cursor rest
      let back ← walkSections ρ limit others.cursor after
      return front.append (own.append (others.append back))) := by
  rw [walkSections_append, walkSections_append]
  simp only [walkSections, walkItems_append, bind_assoc, pure_bind]
  simp [Walk.append]

/-! ## Events -/

/-- An event is that of an entry, at the time that a tempo map of the segments answers for the beat.
-/
def IsTimedAt (ρ : Rounding) (segments : List (Segment Number)) (entry : Entry) (event : Event) :
    Prop :=
  ∃ seconds, TempoMap.answerOf (TempoMap.secondsAt ρ entry.beat) (TempoMap.fresh segments) =
    .ok seconds ∧ event = eventAt entry seconds

/-- The events of a song are those of the sorted entries of its walk. -/
theorem schedule_eq_ok_iff {segments : List (Segment Number)} {map : TempoMap} {song : Song}
    {events : List Event} (hmap : TempoMap.IsOf ρ segments map) :
    schedule ρ limit map song = .ok events ↔
      ∃ w, walk ρ limit song = .ok w ∧
        List.Forall₂ (IsTimedAt ρ segments) (sorted (entries w)) events := by
  have htimed (entry : Entry) (event : Event) :
      (TempoMap.answerOf (TempoMap.secondsAt ρ entry.beat) (TempoMap.fresh segments) >>=
        fun seconds => .ok (eventAt entry seconds)) = .ok event ↔
      IsTimedAt ρ segments entry event := by
    rw [bind_eq_ok]
    exact exists_congr fun seconds => and_congr_right fun _ => by rw [Except.ok.injEq, eq_comm]
  unfold schedule
  rw [bind_eq_ok]
  refine exists_congr fun w => and_congr_right fun _ => ?_
  rw [run_times hmap, mapM_eq_ok_iff]
  simp only [htimed]

end CueSheet.Timeline
