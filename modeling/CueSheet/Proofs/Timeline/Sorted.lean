import CueSheet.Proofs.Lists
import CueSheet.Proofs.Numeric.Point
import CueSheet.Proofs.Timeline.Schedule
import CueSheet.Proofs.Timeline.Source

/-!
# The events of a song are its walk, sorted

The events of a song are what happens on the walk through it, each with its place in the walk, in
order of their beats; events on one beat stay in the order of the walk.
`Timeline.events_of_schedule` says so with the rules of the walk (`Timeline.WalksSections`), and
bounds the number of events. `Timeline.repeat_indices_of_schedule` reads from the details of an event
which repetition of its cue it is.

Entries are compared by their beats, and the comparison sorts because every beat of a walk is a
point (`Number.IsPoint`): a real number of at least zero, or the infinity above all numbers if the
sums of durations grow that far. A walk does not leave the points because its operations do not
(`Timeline.Lands`). That sorting is stable is then a fact about lists that are numbered by their
places.
-/

namespace CueSheet

namespace Timeline

variable {params : Params} {key : String} {maxRepeat : ℤ} {sectionId : String}
  {cursor next : Number} {happenings : List (Number × Happening)}

/-! ## The beats of a walk -/

/-- Real numbers of at least zero are beats of a kind, and the operations of a walk lead from them and
from beats of that kind to beats of that kind. -/
structure Lands (ρ : Rounding) (P : Number → Prop) : Prop where
  /-- A whole number of at least zero is read as a number of at least zero. -/
  toReal : ∀ (n : ℤ) (r : Extended), 0 ≤ n → (Number.int n).toReal ρ = .ok r →
    ∃ q, r.toRat? = some q ∧ 0 ≤ q
  /-- A real number of at least zero is a beat of the kind. -/
  span : ∀ x : Number, x.IsSpan → P x
  /-- The product of real numbers of at least zero is a beat of the kind. -/
  mul : ∀ (r s : Extended) (p q : ℚ), r.toRat? = some p → 0 ≤ p → s.toRat? = some q → 0 ≤ q →
    P (.real (.mul ρ r s))
  /-- The sum of beats of the kind is one. -/
  add : ∀ x y z : Number, P x → P y → Number.add ρ x y = .ok z → P z

/-- With binary64 numbers all beats are points. -/
theorem lands_binary64 : Lands .binary64 Number.IsPoint where
  toReal _ _ hn := Number.exists_of_toReal_int hn
  span _ := Number.IsSpan.isPoint
  mul _ _ _ _ hr hp hs hq := ⟨_, rfl, (Clips.mul_same hr hs hp hq).isPoint⟩
  add _ _ _ hx hy := hx.add hy

section Lands

variable {ρ : Rounding} {P : Number → Prop} (hP : Lands ρ P)

include hP

/-- A real number of at least zero is a beat of the kind also if it is taken several times. -/
theorem Lands.times {x z : Number} {n : ℕ} (hx : x.IsSpan)
    (h : Number.mul ρ (.int n) x = .ok z ∨ Number.mul ρ x (.int n) = .ok z) : P z := by
  obtain ⟨r, q, rfl, hq, hnonneg⟩ := hx
  have hmul : Number.mul ρ (.int n) (.real r) =
      (Number.int n).toReal ρ >>= fun s => .ok (.real (.mul ρ s r)) := rfl
  rw [hmul, Number.real_mul, bind_eq_ok, bind_eq_ok] at h
  obtain ⟨s, hs, h⟩ | ⟨s, hs, h⟩ := h
  all_goals
    obtain rfl := Except.ok.inj h
    obtain ⟨p, hp, hpnonneg⟩ := hP.toReal n s (Int.natCast_nonneg n) hs
  · exact hP.mul s r p q hp hpnonneg hq hnonneg
  · exact hP.mul r s q p hq hnonneg hp hpnonneg

/-- A number of beats that can be used is at least zero. -/
theorem Lands.exists_of_hasBeats {beats : Extended} (h : params.HasBeats ρ key beats) :
    ∃ q, beats.toRat? = some q ∧ 0 ≤ q := by
  obtain ⟨x, -, hnumeric, ⟨q, hq, hnonneg⟩, hreal⟩ := h
  cases x with
  | bool => cases hnumeric
  | int n =>
    obtain rfl := Option.some.inj hq
    exact hP.toReal n beats (Int.cast_nonneg_iff.1 hnonneg) hreal
  | real x =>
    obtain rfl := Except.ok.inj hreal
    exact ⟨q, hq, hnonneg⟩

/-- How long a cue lasts is a real number of at least zero. -/
theorem Lands.isSpan_of_lasts {duration : Number} (h : params.Lasts ρ duration) :
    duration.IsSpan := by
  cases h with
  | usable hbeats =>
    obtain ⟨q, hq, hnonneg⟩ := hP.exists_of_hasBeats hbeats
    exact ⟨_, q, rfl, hq, hnonneg⟩
  | zero | unusable => exact ⟨_, 0, rfl, rfl, le_rfl⟩

/-- A cue that starts on a beat of the kind is on such beats. -/
theorem Lands.onBeats {start duration : Number} {times : ℕ} {beats : List (Number × Option ℕ)}
    (h : OnBeats ρ start duration times beats) (hstart : P start) (hduration : duration.IsSpan) :
    ∀ beat ∈ beats, P beat.1 := by
  cases h with
  | once => simpa using hstart
  | repeated _ _ h =>
    intro beat hbeat
    -- Each beat is the start and a multiple of the duration.
    obtain ⟨index, -, -, shift, hshift, hsum⟩ := exists_of_mem_right h hbeat
    exact hP.add _ _ _ hstart (hP.times hduration (.inl hshift)) hsum

/-- From a beat of the kind an item leads to such beats. -/
theorem Lands.walksItem {item : Item}
    (h : WalksItem ρ maxRepeat sectionId cursor item next happenings) (hcursor : P cursor) :
    P next ∧ ∀ happening ∈ happenings, P happening.1 := by
  cases h with
  | performance | lyric => exact ⟨hcursor, by simpa using hcursor⟩
  | cueAt hstart hlasts _ hbeats =>
    obtain ⟨q, hq⟩ := hP.exists_of_hasBeats hstart
    refine ⟨hcursor, List.forall_mem_map.2 ?_⟩
    exact hP.onBeats hbeats (hP.span _ ⟨_, q, rfl, hq⟩) (hP.isSpan_of_lasts hlasts)
  | cue _ hlasts _ hbeats hadvance hnext =>
    have hspan := hP.isSpan_of_lasts hlasts
    exact ⟨hP.add _ _ _ hcursor (hP.times hspan (.inr hadvance)) hnext,
      List.forall_mem_map.2 (hP.onBeats hbeats hcursor hspan)⟩

/-- From a beat of the kind items lead to such beats. -/
theorem Lands.walksItems {items : List Item}
    (h : WalksItems ρ maxRepeat sectionId cursor items next happenings) (hcursor : P cursor) :
    P next ∧ ∀ happening ∈ happenings, P happening.1 := by
  induction h with
  | nil => exact ⟨hcursor, nofun⟩
  | cons hitem _ ih =>
    obtain ⟨hnext, hfirst⟩ := hP.walksItem hitem hcursor
    obtain ⟨hlast, hrest⟩ := ih hnext
    exact ⟨hlast, List.forall_mem_append.2 ⟨hfirst, hrest⟩⟩

/-- From a beat of the kind sections lead to such beats. -/
theorem Lands.walksSections {parts : List Section}
    (h : WalksSections ρ maxRepeat cursor parts next happenings) (hcursor : P cursor) :
    P next ∧ ∀ happening ∈ happenings, P happening.1 := by
  induction h with
  | nil => exact ⟨hcursor, nofun⟩
  | cons hitems _ ih =>
    obtain ⟨hnext, hfirst⟩ := hP.walksItems hitems hcursor
    obtain ⟨hlast, hrest⟩ := ih hnext
    exact ⟨hlast, List.forall_mem_cons.2 ⟨hcursor, List.forall_mem_append.2 ⟨hfirst, hrest⟩⟩⟩

/-- A walk from beat zero leads to beats of the kind. -/
theorem Lands.walk {song : Song} {w : Walk} (h : walk ρ maxRepeat.toNat song = .ok w) :
    ∀ happening ∈ w.happenings, P happening.1 :=
  (hP.walksSections (walkSections_eq_ok_iff.1 h) (hP.span _ ⟨_, 0, rfl, rfl, le_rfl⟩)).2

end Lands

/-! ## The number of happenings -/

variable {ρ : Rounding}

/-- A cue happens at most as often as the limit says, or once. -/
theorem length_onBeats_le {start duration : Number} {times : ℕ} {beats : List (Number × Option ℕ)}
    (hrepeats : params.Repeats maxRepeat times) (h : OnBeats ρ start duration times beats) :
    (beats.length : ℤ) ≤ max 1 maxRepeat := by
  cases h with
  | once => exact le_max_left ..
  | repeated _ htimes h =>
    rw [← h.length_eq, List.length_range]
    -- More than one repeat is a number of repeats within the limit.
    cases hrepeats with
    | once => exact absurd htimes (lt_irrefl 1)
    | within _ hpos hle => omega

/-- An item happens at most as often as the limit says, or once. -/
theorem length_walksItem_le {item : Item}
    (h : WalksItem ρ maxRepeat sectionId cursor item next happenings) :
    (happenings.length : ℤ) ≤ max 1 maxRepeat := by
  cases h with
  | performance | lyric => exact le_max_left ..
  | cueAt _ _ hrepeats hbeats | cue _ _ hrepeats hbeats =>
    rw [List.length_map]
    exact length_onBeats_le hrepeats hbeats

/-- Items happen at most as often as the limit says, or once each. -/
theorem length_walksItems_le {items : List Item}
    (h : WalksItems ρ maxRepeat sectionId cursor items next happenings) :
    (happenings.length : ℤ) ≤ items.length * max 1 maxRepeat := by
  induction h with
  | nil => simp
  | cons hitem _ ih =>
    have hfirst := length_walksItem_le hitem
    rw [List.length_append, List.length_cons, Nat.cast_add, Nat.cast_add, Nat.cast_one, add_mul,
      one_mul, add_comm (_ * _)]
    exact add_le_add hfirst ih

/-- There is a happening for each section, and those of its items. -/
theorem length_walksSections_le {parts : List Section}
    (h : WalksSections ρ maxRepeat cursor parts next happenings) :
    (happenings.length : ℤ) ≤
      parts.length + (parts.map (·.items.length)).sum * max 1 maxRepeat := by
  induction h with
  | nil => simp
  | cons hitems _ ih =>
    have hfirst := length_walksItems_le hitems
    simp only [List.cons_append, List.length_cons, List.length_append, List.map_cons,
      List.sum_cons, Nat.cast_add, Nat.cast_one, add_mul]
    linarith

/-! ## Sorted entries -/

/-- One entry is in front of another: on an earlier beat, or on the same one and earlier in the
walk.
-/
def Entry.IsBefore (first second : Entry) : Prop :=
  first.beat.lt second.beat = true ∨
    first.beat.eq second.beat = true ∧ first.order < second.order

/-- The entries of a walk are numbered by their places. -/
theorem order_getElem_entries (walk : Walk) (i : ℕ) (h : i < (entries walk).length) :
    (entries walk)[i].order = i := by
  simp [entries]

/-- Sorted entries on points are in order, and entries on one beat stay in the order of the walk. -/
theorem pairwise_sorted {walk : Walk} (h : ∀ happening ∈ walk.happenings, happening.1.IsPoint) :
    (sorted (entries walk)).Pairwise Entry.IsBefore := by
  have hpoints := (forall_sorted_iff (P := Number.IsPoint) walk).2 h
  -- Undefined beats would spoil the comparison; on points it is that of their positions, which are
  -- totally ordered.
  let le : Entry → Entry → Bool := fun first second => first.beat.position ≤ second.beat.position
  have hle : sorted (entries walk) = (entries walk).mergeSort le := by
    have hmap := List.map_mergeSort (f := id) (l := entries walk)
      (r := fun first second : Entry => !second.beat.lt first.beat) (s := le) ?_
    · simpa [sorted] using hmap
    · intro first hfirst second hsecond
      have hfirst := hpoints first (List.mem_mergeSort.2 hfirst)
      have hsecond := hpoints second (List.mem_mergeSort.2 hsecond)
      rw [Bool.eq_iff_iff, Bool.not_eq_true', ← Bool.not_eq_true, (hsecond.compare hfirst).1]
      simp [le]
  have hsorted : ((entries walk).mergeSort le).Pairwise fun first second =>
      le first second = true ∧ (le second first = true → first.order < second.order) :=
    pairwise_mergeSort_of_numbered (fun x y z => by simpa [le] using le_trans)
      (fun x y => by simpa [le] using le_total _ _) (order_getElem_entries walk)
  rw [hle] at hpoints ⊢
  refine hsorted.imp_of_mem fun {first second} hfirst hsecond ⟨hbeat, horder⟩ => ?_
  obtain ⟨hlt, heq⟩ := (hpoints first hfirst).compare (hpoints second hsecond)
  rw [Entry.IsBefore, hlt, heq]
  rcases (of_decide_eq_true hbeat).lt_or_eq with hlt | heq
  · exact .inl hlt
  · exact .inr ⟨heq, horder (decide_eq_true heq.ge)⟩

/-! ## Events in order -/

/-- The place of an event in the walk, as its details tell it. -/
def orderIn (payload : List (String × Value)) : ℕ :=
  match payload.lookup "order" with
  | some (.number (.int n)) => n.toNat
  | _ => 0

/-- What an entry tells of its event: the beat, the kind and the details. -/
def untimed (entry : Entry) : Number × String × List (String × Value) :=
  (entry.beat, entry.happening.kind, entry.happening.details ++ [("order", .int entry.order)])

/-- The details of an event tell its place in the walk. -/
theorem orderIn_untimed (entry : Entry) : orderIn (untimed entry).2.2 = entry.order := by
  obtain ⟨beat, order, happening⟩ := entry
  cases happening with
  | sectionStart | performance | lyric => rfl
  | cue _ _ _ repetition => cases repetition <;> rfl

/-- A song has events exactly if there is a walk and the tempo map has a time for each beat of it.
-/
theorem not_fails_schedule_iff {limit : ℕ} {map : TempoMap} {segments : List (Segment Number)}
    {song : Song} (hmap : TempoMap.IsOf ρ segments map) :
    ¬Fails (schedule ρ limit map song) ↔
      ∃ w, walk ρ limit song = .ok w ∧ ∀ happening ∈ w.happenings, ¬Fails
        (TempoMap.answerOf (TempoMap.secondsAt ρ happening.1) (TempoMap.fresh segments)) := by
  unfold schedule
  cases walk ρ limit song with
  | error fault => exact iff_of_false (not_not.2 (fails_error fault)) (by rintro ⟨w, ⟨⟩, -⟩)
  | ok w =>
    rw [ok_bind, run_times hmap, fails_mapM_iff]
    simp only [fails_bind_of_total fun _ _ => not_fails_ok _, Except.ok.injEq, exists_eq_left',
      not_exists, not_and]
    exact forall_sorted_iff (P := fun beat =>
      ¬Fails (TempoMap.answerOf (TempoMap.secondsAt ρ beat) (TempoMap.fresh segments))) w

/-- Whether a song has events, told without sorting them: there are a tempo map, a walk, and a time
for each beat of it. -/
def hasEvents (ρ : Rounding) (limit : ℕ) (song : Song) : Bool :=
  yields (TempoMap.ofSong ρ song) fun map => yields (walk ρ limit song) fun w =>
    w.happenings.all fun happening =>
      yields (TempoMap.answerOf (TempoMap.secondsAt ρ happening.1) map) fun _ => true

/-- A song has events if it is told so. -/
theorem exists_of_hasEvents {limit : ℕ} {song : Song} (h : hasEvents ρ limit song = true) :
    ∃ events, scheduleAlone ρ limit song = .ok events := by
  obtain ⟨map, hmap, h⟩ := exists_of_yields h
  obtain ⟨w, hw, h⟩ := exists_of_yields h
  obtain ⟨segments, -, -, rfl⟩ := TempoMap.ofSegments_eq_ok_iff.1 hmap
  have hschedule : ¬Fails (schedule ρ limit (TempoMap.fresh segments) song) := by
    refine (not_fails_schedule_iff (TempoMap.isOf_fresh ρ segments)).2 ⟨w, hw, fun happening hmem => ?_⟩
    obtain ⟨seconds, hseconds, -⟩ := exists_of_yields (List.all_eq_true.1 h happening hmem)
    exact not_fails_iff.2 ⟨seconds, hseconds⟩
  rw [scheduleAlone, hmap, ok_bind]
  exact not_fails_iff.1 hschedule

/-- The events of entries tell what the entries do. -/
theorem map_untimed {segments : List (Segment Number)} {entries : List Entry} {events : List Event}
    (h : List.Forall₂ (fun entry event => ∃ seconds,
      TempoMap.answerOf (TempoMap.secondsAt ρ entry.beat) (TempoMap.fresh segments) = .ok seconds ∧
        event = eventAt entry seconds) entries events) :
    events.map (fun event => (event.beats, event.kind, event.payload)) = entries.map untimed := by
  induction h with
  | nil => rfl
  | cons hevent _ ih =>
    obtain ⟨seconds, -, rfl⟩ := hevent
    rw [List.map_cons, List.map_cons, ih]
    rfl

/-- The events of entries in order are in order. -/
theorem pairwise_of_untimed {entries : List Entry} {events : List Event}
    (h : events.map (fun event => (event.beats, event.kind, event.payload)) = entries.map untimed)
    (horder : entries.Pairwise Entry.IsBefore) :
    events.Pairwise fun a b => a.beats.lt b.beats = true ∨
      a.beats.eq b.beats = true ∧ orderIn a.payload < orderIn b.payload := by
  -- Whether events are in order is told by their beats and details alone.
  rw [← List.pairwise_map (f := fun event : Event => (event.beats, event.kind, event.payload))
    (R := fun a b => a.1.lt b.1 = true ∨
      a.1.eq b.1 = true ∧ orderIn a.2.2 < orderIn b.2.2), h, List.pairwise_map]
  refine horder.imp fun {first second} hbefore => ?_
  rwa [orderIn_untimed, orderIn_untimed]

/-- The events of a song tell what the sorted entries of its walk do. -/
theorem exists_untimed_of_schedule {limit : ℕ} {map : TempoMap} {song : Song} {events : List Event}
    (hmap : TempoMap.IsOf ρ map.segments map) (h : schedule ρ limit map song = .ok events) :
    ∃ w, walk ρ limit song = .ok w ∧
      events.map (fun event => (event.beats, event.kind, event.payload)) =
        (sorted (entries w)).map untimed := by
  obtain ⟨w, hwalk, hevents⟩ := bind_eq_ok.1 h
  exact ⟨w, hwalk, map_untimed (forall₂_of_run hmap hevents)⟩

/-- Each event of a song has the time that the tempo map answers for its beat. -/
theorem secondsAt_of_schedule {limit : ℕ} {map : TempoMap} {song : Song} {events : List Event}
    (hmap : TempoMap.IsOf ρ map.segments map) (h : schedule ρ limit map song = .ok events) :
    ∀ event ∈ events,
      TempoMap.answerOf (TempoMap.secondsAt ρ event.beats) map = .ok event.seconds := by
  intro event hevent
  obtain ⟨w, -, hevents⟩ := bind_eq_ok.1 h
  obtain ⟨entry, -, seconds, hseconds, rfl⟩ :=
    exists_of_mem_right (forall₂_of_run hmap hevents) hevent
  obtain ⟨map', -, hrun⟩ := (TempoMap.steady_secondsAt ρ map.segments entry.beat).exists_run hmap
  exact (congrArg Prod.fst hrun).trans hseconds

/-- In the order that their details tell, the events of sorted entries tell what the entries do in
the order of the walk. -/
theorem mergeSort_orderIn {walk : Walk} {events : List Event}
    (h : events.map (fun event => (event.beats, event.kind, event.payload)) =
      (sorted (entries walk)).map untimed) :
    (events.mergeSort fun a b => orderIn a.payload ≤ orderIn b.payload).map
        (fun event => (event.beats, event.kind, event.payload)) = (entries walk).map untimed := by
  let s : Number × String × List (String × Value) → Number × String × List (String × Value) → Bool :=
    fun a b => orderIn a.2.2 ≤ orderIn b.2.2
  -- Sorting by the numbers that entries carry undoes any other order of them.
  have hnumbered : (sorted (entries walk)).mergeSort (fun a b => a.order ≤ b.order) = entries walk :=
    mergeSort_eq_of_numbered (order_getElem_entries walk) (List.mergeSort_perm ..)
  calc _ = (events.map fun event => (event.beats, event.kind, event.payload)).mergeSort s :=
        List.map_mergeSort fun _ _ _ _ => rfl
    _ = ((sorted (entries walk)).map untimed).mergeSort s := by rw [h]
    _ = ((sorted (entries walk)).mergeSort fun a b => a.order ≤ b.order).map untimed :=
        (List.map_mergeSort fun a _ b _ => by simp [s, orderIn_untimed]).symm
    _ = _ := by rw [hnumbered]

/-- The index of the repetition that a happening is; none if it is no cue, or one that does not
repeat. -/
def repetition? : Happening → Option ℕ
  | .cue _ _ _ repetition => repetition
  | .sectionStart .. | .performance .. | .lyric .. => none

/-- The details of an event tell the index of a repetition exactly if it is one. -/
theorem lookup_repeat_index (happening : Happening) (order : ℕ) :
    (happening.details ++ [("order", Value.int order)]).lookup "repeat_index" =
      (repetition? happening).map fun (index : ℕ) => Value.int index := by
  cases happening with
  | sectionStart | performance | lyric => rfl
  | cue _ _ _ repetition => cases repetition <;> rfl

/-- Events with the details of happenings tell which repetitions these are. -/
theorem map_lookup_repeat_index {events : List Event} {happenings : List (Number × Happening)}
    (h : events.map (fun event => (event.beats, event.kind, event.payload)) =
      happenings.zipIdx.map fun ((beat, happening), order) =>
        (beat, happening.kind, happening.details ++ [("order", .int order)])) :
    events.map (fun event => event.payload.lookup "repeat_index") =
      happenings.map fun (_, happening) =>
        (repetition? happening).map fun (index : ℕ) => Value.int index := by
  calc events.map (fun event => event.payload.lookup "repeat_index")
      = (events.map fun event => (event.beats, event.kind, event.payload)).map
          (fun event => event.2.2.lookup "repeat_index") := by
        rw [List.map_map]
        rfl
    _ = happenings.zipIdx.map (fun entry =>
          (repetition? entry.1.2).map fun (index : ℕ) => Value.int index) := by
        rw [h, List.map_map]
        exact List.map_congr_left fun entry _ => lookup_repeat_index entry.1.2 entry.2
    -- The places in the walk, which the details tell as well, are not asked for here.
    _ = (happenings.zipIdx.map Prod.fst).map (fun happening =>
          (repetition? happening.2).map fun (index : ℕ) => Value.int index) := by
        rw [List.map_map]
        rfl
    _ = _ := by rw [List.zipIdx_map_fst]

/-- In the order that their details tell, the events of a song tell the indices that the rules of the
walk give to the repetitions of each cue. -/
theorem repeat_indices_of_schedule {map : TempoMap} {song : Song} {events : List Event}
    (hmap : TempoMap.IsOf ρ map.segments map)
    (h : schedule ρ maxRepeat.toNat map song = .ok events) :
    ∃ last happenings,
      WalksSections ρ maxRepeat (.real (.finite 0)) song.sections last happenings ∧
      (events.mergeSort fun a b => orderIn a.payload ≤ orderIn b.payload).map
          (fun event => event.payload.lookup "repeat_index") =
        happenings.map fun (_, happening) =>
          (repetition? happening).map fun (index : ℕ) => Value.int index := by
  obtain ⟨⟨last, happenings⟩, hwalk, huntimed⟩ := exists_untimed_of_schedule hmap h
  refine ⟨last, happenings, walkSections_eq_ok_iff.1 hwalk, map_lookup_repeat_index ?_⟩
  rw [mergeSort_orderIn huntimed, entries, List.map_map]
  rfl

/-- The events of a song are the happenings of its walk, sorted. In the order that their details
tell they are what happens on the walk from beat zero, one after the other; they stand in order of
their beats, and on one beat in the order of the walk; each has the time that the tempo map answers
for its beat. There are no more events than sections and items, each of these counted as often as a
cue may repeat. The tempo map may be any whose parts agree, as they do in every map that is made of
segments and edited (`TempoMap.isOf_leaveAll`). -/
theorem events_of_schedule {map : TempoMap} {song : Song} {events : List Event}
    (hmap : TempoMap.IsOf .binary64 map.segments map)
    (h : schedule .binary64 maxRepeat.toNat map song = .ok events) :
    (∃ last happenings,
      WalksSections .binary64 maxRepeat (.real (.finite 0)) song.sections last happenings ∧
      (events.mergeSort fun a b => orderIn a.payload ≤ orderIn b.payload).map
          (fun event => (event.beats, event.kind, event.payload)) =
        happenings.zipIdx.map fun ((beat, happening), order) =>
          (beat, happening.kind, happening.details ++ [("order", .int order)])) ∧
    events.Pairwise (fun a b => a.beats.lt b.beats = true ∨
      a.beats.eq b.beats = true ∧ orderIn a.payload < orderIn b.payload) ∧
    (∀ event ∈ events,
      TempoMap.answerOf (TempoMap.secondsAt .binary64 event.beats) map = .ok event.seconds) ∧
    (events.length : ℤ) ≤
      song.sections.length + (song.sections.map (·.items.length)).sum * max 1 maxRepeat := by
  obtain ⟨⟨last, happenings⟩, hwalk, huntimed⟩ := exists_untimed_of_schedule hmap h
  have hwalks := walkSections_eq_ok_iff.1 hwalk
  have hordered := pairwise_sorted (lands_binary64.walk hwalk)
  refine ⟨⟨last, happenings, hwalks, ?_⟩, pairwise_of_untimed huntimed hordered,
    secondsAt_of_schedule hmap h, ?_⟩
  · rw [mergeSort_orderIn huntimed, entries, List.map_map]
    rfl
  · have hlength : events.length = happenings.length := by
      simpa [sorted, entries] using congrArg List.length huntimed
    rw [hlength]
    exact length_walksSections_le hwalks

/-- A song of a section with a cue that starts on a later beat, a lyric and a cue that repeats. -/
def lateFirst : Song where
  title := none
  bpm := .int 120
  beatsPerBar := .int 4
  key := none
  version := defaultVersion
  timeSignature := none
  instruments := []
  tempoChanges := []
  sections := [⟨"verse", "Verse", [
    .cue ⟨"light", none, [("start_beats", .int 1)], []⟩ 2, .lyric "la" 3,
    .cue ⟨"drum", none, [("duration_beats", .int 1), ("repeat", .int 2)], []⟩ 4], 1⟩]

/-- The happenings of that song, in the order of the walk. -/
def lateFirstHappenings : List (Number × Happening) := [
  (.real (.finite 0), .sectionStart "verse" "Verse" 1),
  (.real (.finite 1), .cue "verse" ⟨"light", none, [("start_beats", .int 1)], []⟩ 2 none),
  (.real (.finite 0), .lyric "verse" "la" 3),
  (.real (.finite 0), .cue "verse"
    ⟨"drum", none, [("duration_beats", .int 1), ("repeat", .int 2)], []⟩ 4 (some 0)),
  (.real (.finite 1), .cue "verse"
    ⟨"drum", none, [("duration_beats", .int 1), ("repeat", .int 2)], []⟩ 4 (some 1))]

/-- The song has events, which are the happenings of the walk once they are put in its order. The last
two tell the repetitions of the cue that repeats. -/
theorem events_of_schedule_lateFirst :
    ∃ map events, TempoMap.IsOf .binary64 map.segments map ∧
      schedule .binary64 (8 : ℤ).toNat map lateFirst = .ok events ∧
      ((events.mergeSort fun a b => orderIn a.payload ≤ orderIn b.payload).map
          (fun event => (event.beats, event.kind, event.payload)) =
        lateFirstHappenings.zipIdx.map fun ((beat, happening), order) =>
          (beat, happening.kind, happening.details ++ [("order", .int order)])) ∧
      (events.mergeSort fun a b => orderIn a.payload ≤ orderIn b.payload).map
          (fun event => event.payload.lookup "repeat_index") =
        [none, none, none, some (.int 0), some (.int 1)] := by
  have hmap := TempoMap.isOf_fresh .binary64 [⟨.int 0, .int 120⟩]
  have hwalk : walk .binary64 (8 : ℤ).toNat lateFirst =
      .ok ⟨.real (.finite 2), lateFirstHappenings⟩ := by decide +kernel
  have htimes : ∀ happening ∈ lateFirstHappenings, ¬Fails (TempoMap.answerOf
      (TempoMap.secondsAt .binary64 happening.1) (TempoMap.fresh [⟨.int 0, .int 120⟩])) := by
    have hzero : TempoMap.answerOf (TempoMap.secondsAt .binary64 (.real (.finite 0)))
      (TempoMap.fresh [⟨.int 0, .int 120⟩]) = .ok (.real (.finite 0)) := by decide +kernel
    have hone : TempoMap.answerOf (TempoMap.secondsAt .binary64 (.real (.finite 1)))
      (TempoMap.fresh [⟨.int 0, .int 120⟩]) = .ok (.real (.finite (1 / 2))) := by decide +kernel
    simp [lateFirstHappenings, hzero, hone]
  obtain ⟨events, hevents⟩ := not_fails_iff.1 ((not_fails_schedule_iff hmap).2 ⟨_, hwalk, htimes⟩)
  obtain ⟨⟨last, happenings, hwalks, hsorted⟩, -⟩ := events_of_schedule hmap hevents
  have hsame := (walkSections_eq_ok_iff.2 hwalks).symm.trans hwalk
  obtain ⟨-, rfl⟩ := Walk.mk.inj (Except.ok.inj hsame)
  exact ⟨_, events, hmap, hevents, hsorted, map_lookup_repeat_index hsorted⟩

end Timeline

end CueSheet
