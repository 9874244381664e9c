import Mathlib.Data.List.InsertIdx
import CueSheet.Proofs.Tempo.Clock
import CueSheet.Tempo.Operation

/-!
# The offsets of a tempo map cannot be observed

A tempo map holds three things that have to agree: its segments, their starts, and the times of the
starts once a question has asked for them. An operation may fill in the times, throw them away, or
fail after it has filled them in. `TempoMap.runAll_eq_forgetOffsets` says that none of this shows:
whatever has been done to a map before, the next operation has the answer or the fault that it has on
the map without the times.

A question does the same on all maps of given segments (`TempoMap.Steady`), and so does adding a
segment (`TempoMap.run_add`). From this each operation keeps the three parts of a map in agreement,
and a run of operations does (`TempoMap.isOf_leaveAll`).
-/

namespace CueSheet.TempoMap

variable {α β : Type} {ρ : Rounding} {segments : List (Segment Number)} {map : TempoMap}

/-! ## Questions -/

/-- What is answered when a tempo map is asked. -/
def answerOf (question : TempoM α) (map : TempoMap) : Except Fault α :=
  (question.run.run map).1

/-- A question that uses the answer to another one is asked of the map that the other one leaves. -/
theorem answerOf_bind {question : TempoM α} {f : α → TempoM β} {map' : TempoMap} {answer : α}
    (h : question.run.run map = (.ok answer, map')) :
    answerOf (question >>= f) map = answerOf (f answer) map' := by
  unfold answerOf
  rw [TempoM.run_bind, h]

/-- On every tempo map of some segments, whatever it has worked out, a question has the same answer,
and it leaves a map of these segments. -/
def Steady (ρ : Rounding) (segments : List (Segment Number)) (x : TempoM α) : Prop :=
  ∃ answer, ∀ map, IsOf ρ segments map → ∃ map', IsOf ρ segments map' ∧
    x.run.run map = (answer, map')

/-- A tempo map that has worked out nothing is one of its segments. -/
theorem isOf_fresh (ρ : Rounding) (segments : List (Segment Number)) :
    IsOf ρ segments (fresh segments) :=
  ⟨rfl, rfl, nofun⟩

/-- What does not look at the map is steady. -/
theorem steady_lift (ρ : Rounding) (segments : List (Segment Number)) (x : Except Fault α) :
    Steady ρ segments (ExceptT.mk (pure x)) :=
  ⟨x, fun map hmap => ⟨map, hmap, TempoM.run_lift x map⟩⟩

/-- The table of offsets is worked out from the segments. -/
theorem steady_offsetTable (ρ : Rounding) (segments : List (Segment Number)) :
    Steady ρ segments (offsetTable ρ) :=
  ⟨computeOffsets ρ segments, fun _ hmap => run_offsetTable hmap⟩

/-- A steady question has the answer that it has on the map that has worked out nothing. -/
theorem Steady.exists_run {x : TempoM α} (hx : Steady ρ segments x) (hmap : IsOf ρ segments map) :
    ∃ map', IsOf ρ segments map' ∧ x.run.run map = (answerOf x (fresh segments), map') := by
  obtain ⟨answer, hanswer⟩ := hx
  obtain ⟨map', hmap', hrun⟩ := hanswer map hmap
  obtain ⟨_, -, hfresh⟩ := hanswer (fresh segments) (isOf_fresh ρ segments)
  exact ⟨map', hmap', by rw [answerOf, hfresh, hrun]⟩

/-- Two steady steps are a steady one. -/
theorem Steady.bind {x : TempoM α} {f : α → TempoM β} (hx : Steady ρ segments x)
    (hf : ∀ a, Steady ρ segments (f a)) : Steady ρ segments (x >>= f) := by
  -- The first step has one answer for all maps, so either it fails on all of them or on none.
  obtain ⟨first, hx⟩ := hx
  cases first with
  | error fault =>
    refine ⟨.error fault, fun map hmap => ?_⟩
    obtain ⟨map', hmap', hrun⟩ := hx map hmap
    exact ⟨map', hmap', by rw [TempoM.run_bind, hrun]⟩
  | ok a =>
    obtain ⟨answer, hanswer⟩ := hf a
    refine ⟨answer, fun map hmap => ?_⟩
    obtain ⟨map', hmap', hrun⟩ := hx map hmap
    obtain ⟨map'', hmap'', hrun'⟩ := hanswer map' hmap'
    exact ⟨map'', hmap'', by rw [TempoM.run_bind, hrun, ← hrun']⟩

/-- A question may look at the map as long as the offsets do not matter. -/
theorem steady_get {f : TempoMap → TempoM α} (hf : Steady ρ segments (f (fresh segments)))
    (hsame : ∀ map, IsOf ρ segments map → f map = f (fresh segments)) :
    Steady ρ segments (get >>= f) := by
  obtain ⟨answer, hanswer⟩ := hf
  refine ⟨answer, fun map hmap => ?_⟩
  rw [TempoM.run_bind, TempoM.run_get]
  dsimp only
  rw [hsame map hmap]
  exact hanswer map hmap

/-- The index of the segment of a beat is found among the starts. -/
theorem indexAt_eq_fresh (hmap : IsOf ρ segments map) (beat : Number) :
    map.indexAt beat = (fresh segments).indexAt beat := by
  unfold indexAt
  rw [hmap.starts_eq]
  rfl

/-- The segment of a beat is found among the segments. -/
theorem segmentAt_eq_fresh (hmap : IsOf ρ segments map) (beat : Number) :
    map.segmentAt beat = (fresh segments).segmentAt beat := by
  unfold segmentAt
  rw [indexAt_eq_fresh hmap, hmap.segments_eq]
  rfl

/-- The time of a beat is steady. -/
theorem steady_secondsAt (ρ : Rounding) (segments : List (Segment Number)) (beat : Number) :
    Steady ρ segments (secondsAt ρ beat) := by
  refine steady_get ?_ fun map hmap => ?_
  · exact (steady_lift ..).bind fun _ => (steady_offsetTable ..).bind fun _ => steady_lift ..
  · rw [indexAt_eq_fresh hmap, hmap.segments_eq]
    rfl

/-- The beat at a time is steady. -/
theorem steady_beatAt (ρ : Rounding) (segments : List (Segment Number)) (seconds : Number) :
    Steady ρ segments (beatAt ρ seconds) := by
  unfold beatAt
  split_ifs
  · refine (steady_lift ..).bind fun _ => (steady_offsetTable ..).bind fun offsets =>
      steady_get (steady_lift ..) fun map hmap => ?_
    rw [hmap.segments_eq]
    rfl
  · refine (steady_offsetTable ..).bind fun offsets => steady_get (steady_lift ..) fun map hmap => ?_
    rw [hmap.segments_eq]
    rfl

/-- An operation is a question unless it adds a segment. -/
theorem steady_run (ρ : Rounding) (segments : List (Segment Number)) {operation : Operation}
    (h : ∀ segment, operation ≠ .add segment) : Steady ρ segments (operation.run ρ) := by
  -- What a query looks at is answered alike by a fresh map; only the table of offsets is stored.
  cases operation with
  | add segment => exact absurd rfl (h segment)
  | segments =>
    refine steady_get (steady_lift ..) fun map hmap => ?_
    rw [hmap.segments_eq]
    rfl
  | indexAt beat =>
    refine (steady_lift ..).bind fun beat => steady_get ?_ fun map hmap => ?_
    · exact (steady_lift ..).bind fun _ => steady_lift ..
    · rw [indexAt_eq_fresh hmap]
  | segmentAt beat =>
    refine (steady_lift ..).bind fun beat => steady_get ?_ fun map hmap => ?_
    · exact (steady_lift ..).bind fun _ => steady_lift ..
    · rw [segmentAt_eq_fresh hmap]
  | bpmAt beat =>
    refine (steady_lift ..).bind fun beat => steady_get ?_ fun map hmap => ?_
    · exact (steady_lift ..).bind fun _ => steady_lift ..
    · rw [segmentAt_eq_fresh hmap]
  | secondsAt beat =>
    exact (steady_lift ..).bind fun _ => (steady_secondsAt ..).bind fun _ => steady_lift ..
  | beatAt seconds =>
    exact (steady_lift ..).bind fun _ => (steady_beatAt ..).bind fun _ => steady_lift ..

/-! ## Adding a segment -/

/-- A segment is added to the segments and its start to the starts, in the same place. -/
theorem isOf_insertAt (hmap : IsOf ρ segments map) (index : ℕ) (segment : Segment Number) :
    IsOf ρ (segments.insertIdx index segment) (map.insertAt index segment) := by
  refine ⟨?_, ?_, nofun⟩
  · rw [insertAt, hmap.segments_eq]
  · rw [insertAt, hmap.starts_eq, List.map_insertIdx]

/-- Where a segment is added among starts; a fault if it cannot be. -/
def place (ρ : Rounding) (starts : List Number) (segment : Segment Value) :
    Except Fault (ℕ × Segment Number) := do
  let bpm ← checkTempo ρ segment
  let start ← segment.start.toNumber '<'
  if start.isNegative then conflictAt start .beforeStart
  let index := boundary (·.lt start) starts
  if starts[index]?.any (·.eq start) then conflictAt start (.sameStart (← start.shown))
  return (index, ⟨start, bpm⟩)

/-- Adding a segment is finding its place and putting it there. -/
theorem add_eq (ρ : Rounding) (map : TempoMap) (segment : Segment Value) :
    add ρ map segment =
      place ρ map.starts segment >>= fun placed => .ok (map.insertAt placed.1 placed.2) := by
  unfold add place
  cases checkTempo ρ segment with
  | error => rfl
  | ok bpm =>
    cases segment.start.toNumber '<' with
    | error => rfl
    | ok start =>
      simp only [ok_bind]
      split_ifs
      · rfl
      · rfl
      · cases start.shown <;> rfl
      · rfl

/-- A run of an added segment puts it in its place, or leaves the map as it is. -/
theorem run_add (ρ : Rounding) (map : TempoMap) (segment : Segment Value) :
    ((Operation.add segment).run ρ).run.run map =
      match place ρ map.starts segment with
      | .ok (index, added) =>
        (.ok (.segments (map.segments.insertIdx index added)), map.insertAt index added)
      | .error fault => (.error fault, map) := by
  unfold Operation.run
  rw [TempoM.run_bind, TempoM.run_get]
  dsimp only
  rw [TempoM.run_bind, TempoM.run_lift, add_eq]
  cases place ρ map.starts segment <;> rfl

/-! ## Runs of operations -/

namespace Operation

/-- What an operation answers on a map. -/
def answer (ρ : Rounding) (operation : Operation) (map : TempoMap) : Except Fault Answer :=
  ((operation.run ρ).run.run map).1

/-- The map that an operation leaves. -/
def leave (ρ : Rounding) (operation : Operation) (map : TempoMap) : TempoMap :=
  ((operation.run ρ).run.run map).2

end Operation

/-- The map that operations leave that are carried out one after the other. -/
def leaveAll (ρ : Rounding) (map : TempoMap) (operations : List Operation) : TempoMap :=
  operations.foldl (fun map operation => operation.leave ρ map) map

/-- On all maps of some segments an operation has the same answer and leaves maps of the same
segments; if it fails, they are the segments of before. -/
theorem exists_answer (ρ : Rounding) (segments : List (Segment Number)) (operation : Operation) :
    ∃ answer segments', (Fails answer → segments' = segments) ∧
      ∀ map, IsOf ρ segments map → operation.answer ρ map = answer ∧
        IsOf ρ segments' (operation.leave ρ map) := by
  -- Questions leave the segments; adding one depends only on the starts, which are theirs.
  by_cases hquestion : ∀ segment, operation ≠ .add segment
  · obtain ⟨answer, hanswer⟩ := steady_run ρ segments hquestion
    refine ⟨answer, segments, fun _ => rfl, fun map hmap => ?_⟩
    obtain ⟨map', hmap', hrun⟩ := hanswer map hmap
    unfold Operation.answer Operation.leave
    rw [hrun]
    exact ⟨rfl, hmap'⟩
  · obtain ⟨segment, rfl⟩ : ∃ segment, operation = .add segment := by
      simpa using hquestion
    unfold Operation.answer Operation.leave
    cases hplace : place ρ (segments.map (·.start)) segment with
    | error fault =>
      refine ⟨.error fault, segments, fun _ => rfl, fun map hmap => ?_⟩
      rw [run_add, hmap.starts_eq, hplace]
      exact ⟨rfl, hmap⟩
    | ok placed =>
      obtain ⟨index, added⟩ := placed
      refine ⟨.ok (.segments (segments.insertIdx index added)), segments.insertIdx index added,
        fun h => absurd h (not_fails_ok _), fun map hmap => ?_⟩
      rw [run_add, hmap.starts_eq, hplace, hmap.segments_eq]
      exact ⟨rfl, isOf_insertAt hmap index added⟩

/-- An operation keeps the parts of a map in agreement. -/
theorem isOf_leave (hmap : IsOf ρ map.segments map) (operation : Operation) :
    IsOf ρ (operation.leave ρ map).segments (operation.leave ρ map) := by
  obtain ⟨answer, segments', -, hall⟩ := exists_answer ρ map.segments operation
  obtain ⟨-, hleave⟩ := hall map hmap
  rwa [hleave.segments_eq]

/-- Operations keep the parts of a map in agreement. -/
theorem isOf_leaveAll (hmap : IsOf ρ map.segments map) (operations : List Operation) :
    IsOf ρ (leaveAll ρ map operations).segments (leaveAll ρ map operations) := by
  induction operations generalizing map with
  | nil => exact hmap
  | cons operation operations ih => exact ih (isOf_leave hmap operation)

/-- The answer to an operation in a run is the one on the map that the operations before it leave. -/
theorem runAll_getElem? (ρ : Rounding) (map : TempoMap) (before after : List Operation)
    (operation : Operation) :
    (runAll ρ map (before ++ operation :: after))[before.length]? =
      some (operation.answer ρ (leaveAll ρ map before)) := by
  induction before generalizing map with
  | nil => rfl
  | cons first before ih => exact ih (first.leave ρ map)

/-- The offsets that a tempo map has worked out cannot be observed. Whatever has been done to a map,
the next operation has the answer or the fault that it has on the map without the offsets; the starts
are those of the segments; and an operation that fails leaves the segments as they are. -/
theorem runAll_eq_forgetOffsets {given : List (Segment Value)} (h : ofSegments ρ given = .ok map)
    (before : List Operation) (operation : Operation) (after : List Operation) :
    let current := leaveAll ρ map before
    (runAll ρ map (before ++ operation :: after))[before.length]? =
        some (operation.answer ρ current.forgetOffsets) ∧
      current.starts = current.segments.map (·.start) ∧
      (Fails (operation.answer ρ current) →
        (operation.leave ρ current).segments = current.segments) := by
  intro current
  obtain ⟨segments, -, -, rfl⟩ := ofSegments_eq_ok_iff.1 h
  -- The map with and the one without its offsets are both maps of the current segments.
  have hcurrent : IsOf ρ current.segments current := isOf_leaveAll (isOf_fresh ρ segments) before
  have hforget : IsOf ρ current.segments current.forgetOffsets :=
    ⟨rfl, hcurrent.starts_eq, nofun⟩
  obtain ⟨answer, segments', hfails, hall⟩ := exists_answer ρ current.segments operation
  obtain ⟨hanswer, hleave⟩ := hall current hcurrent
  refine ⟨?_, hcurrent.starts_eq, fun h => ?_⟩
  · rw [runAll_getElem?, hanswer, (hall _ hforget).1]
  · rw [hleave.segments_eq, hfails (hanswer ▸ h)]

/-- A tempo map of two segments. -/
def twoTempos : TempoMap := fresh [⟨.int 0, .int 120⟩, ⟨.int 16, .int 90⟩]

/-- Questions and an edit, after which the offsets are those of three segments. -/
def askAndEdit : List Operation :=
  [.secondsAt (.int 20), .add ⟨.int 8, .int 60⟩, .secondsAt (.int (-1)), .secondsAt (.int 20)]

/-- After the questions and the edit the map has offsets at hand. A second edit on the same beat
fails as it does without them, and leaves the segments as they are. -/
theorem runAll_eq_forgetOffsets_twoTempos :
    let current := leaveAll .binary64 twoTempos askAndEdit
    let twice : Operation := .add ⟨.int 8, .int 60⟩
    ofSegments .binary64 [⟨.int 0, .int 120⟩, ⟨.int 16, .int 90⟩] = .ok twoTempos ∧
      current.offsets.isSome = true ∧ Fails (twice.answer .binary64 current) ∧
      (runAll .binary64 twoTempos (askAndEdit ++ [twice, .segments]))[4]? =
        some (twice.answer .binary64 current.forgetOffsets) ∧
      current.starts = current.segments.map (·.start) ∧
      (twice.leave .binary64 current).segments = current.segments := by
  intro current twice
  have hmap : ofSegments .binary64 [⟨.int 0, .int 120⟩, ⟨.int 16, .int 90⟩] = .ok twoTempos := by
    decide +kernel
  have hfails : twice.answer .binary64 current =
      .error (.conflict (.sameStart "8") (some (.int 8))) := by decide +kernel
  obtain ⟨hanswer, hstarts, hsegments⟩ := runAll_eq_forgetOffsets hmap askAndEdit twice [.segments]
  exact ⟨hmap, by decide +kernel, ⟨_, hfails⟩, hanswer, hstarts, hsegments ⟨_, hfails⟩⟩

end CueSheet.TempoMap
