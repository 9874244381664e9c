import CueSheet.Proofs.Timeline.Around

/-!
# A song without a cue that has a start of its own

A cue with a start of its own leaves the cursor where it is, so the walk through a song without the
cue is the walk through the song without the happenings of the cue. The events of everything else
are then the same, in the same sequence and at the same times (`Timeline.schedule_without_cue`);
only their places in the walk move up, which sorting does not see (`Timeline.map_filter_sorted`).
-/

namespace CueSheet

/-- The event without its place in the walk. -/
def Event.unnumbered (event : Event) : Event :=
  { event with payload := event.payload.filter fun detail => detail.1 ≠ "order" }

namespace Timeline

variable {ρ : Rounding} {limit : ℕ} {front own back : List (Number × Happening)}

/-! ## A part of a walk -/

/-- Apart from their places, entries tell what their happenings do. -/
theorem map_entriesFrom (place : ℕ) (happenings : List (Number × Happening)) :
    (entriesFrom place happenings).map
        (fun entry => (entry.beat, entry.happening.kind, entry.happening.details)) =
      happenings.map fun (beat, happening) => (beat, happening.kind, happening.details) := by
  conv_rhs => rw [← List.zipIdx_map_fst place happenings]
  rw [entriesFrom, List.map_map, List.map_map]
  rfl

/-- Whether a place is one of so many from a first one on. -/
def isAmong (first count place : ℕ) : Bool := first ≤ place && place < first + count

/-- A place once so many places from a first one on are gone. -/
def closeUp (first count place : ℕ) : ℕ := if place < first then place else place - count

/-- Places that stay are closed up in order. -/
theorem closeUp_lt_closeUp {first count m n : ℕ} (hm : isAmong first count m = false)
    (hn : isAmong first count n = false) (h : m < n) :
    closeUp first count m < closeUp first count n := by
  simp only [isAmong, Bool.and_eq_false_iff, decide_eq_false_iff_not] at hm hn
  unfold closeUp
  split_ifs <;> omega

/-- The entries at the places of a part of a walk are those of its happenings. -/
theorem filter_isAmong_entries (cursor : Number) :
    (entries ⟨cursor, front ++ (own ++ back)⟩).filter
        (fun entry => isAmong front.length own.length entry.order) =
      entriesFrom front.length own := by
  simp only [entries_eq, entriesFrom_append, List.filter_append, Nat.zero_add]
  rw [filter_entriesFrom (isAmong front.length own.length) false,
    filter_entriesFrom (isAmong front.length own.length) true,
    filter_entriesFrom (isAmong front.length own.length) false]
  · simp
  all_goals
    intro i hi
    simp only [isAmong, Bool.and_eq_false_iff, Bool.and_eq_true, decide_eq_true_eq,
      decide_eq_false_iff_not]
    omega

/-- Without a part of a walk, the entries are those of the other parts. -/
theorem map_closeUp_entries (cursor cursor' : Number) :
    ((entries ⟨cursor, front ++ (own ++ back)⟩).filter
        fun entry => !isAmong front.length own.length entry.order).map
        (Entry.renumber (closeUp front.length own.length)) = entries ⟨cursor', front ++ back⟩ := by
  simp only [entries_eq, entriesFrom_append, List.filter_append, Nat.zero_add]
  rw [filter_entriesFrom (fun place => !isAmong front.length own.length place) true,
    filter_entriesFrom (fun place => !isAmong front.length own.length place) false,
    filter_entriesFrom (fun place => !isAmong front.length own.length place) true]
  · simp only [if_true, Bool.false_eq_true, if_false, List.nil_append, List.map_append]
    rw [map_renumber_entriesFrom 0, map_renumber_entriesFrom front.length]
    all_goals
      intro i hi
      unfold closeUp
      split_ifs <;> omega
  all_goals
    intro i hi
    simp only [isAmong, Bool.not_eq_true', Bool.not_eq_false', Bool.and_eq_false_iff,
      Bool.and_eq_true, decide_eq_true_eq, decide_eq_false_iff_not]
    omega

/-! ## Events -/

variable {segments : List (Segment Number)}

/-- The details of an event without its place are those of what happens. -/
theorem unnumbered_eventAt (entry : Entry) (seconds : Number) :
    (eventAt entry seconds).unnumbered =
      ⟨entry.beat, seconds, entry.happening.kind, entry.happening.details⟩ := by
  obtain ⟨beat, order, happening⟩ := entry
  cases happening with
  | sectionStart | performance | lyric => rfl
  | cue _ _ _ repetition => cases repetition <;> rfl

/-- Entries that are numbered anew have the same events but for the places. -/
theorem exists_events_renumber (f : ℕ → ℕ) {entries : List Entry} {events : List Event}
    (h : List.Forall₂ (IsTimedAt ρ segments) entries events) :
    ∃ events', List.Forall₂ (IsTimedAt ρ segments) (entries.map (Entry.renumber f)) events' ∧
      events.map Event.unnumbered = events'.map Event.unnumbered := by
  induction h with
  | nil => exact ⟨[], .nil, rfl⟩
  | @cons entry _ _ _ hevent _ ih =>
    obtain ⟨seconds, hseconds, rfl⟩ := hevent
    obtain ⟨events', hevents', hsame⟩ := ih
    refine ⟨eventAt (Entry.renumber f entry) seconds :: events',
      .cons ⟨seconds, hseconds, rfl⟩ hevents', ?_⟩
    rw [List.map_cons, List.map_cons, hsame, unnumbered_eventAt, unnumbered_eventAt]
    rfl

/-- The events at some places are those of the entries at these places. -/
theorem filter_isTimedAt {entries : List Entry} {events : List Event} (keep : ℕ → Bool)
    (h : List.Forall₂ (IsTimedAt ρ segments) entries events) :
    List.Forall₂ (IsTimedAt ρ segments) (entries.filter fun entry => keep entry.order)
      (events.filter fun event => keep (orderIn event.payload)) := by
  refine List.rel_filter ?_ h
  rintro entry _ ⟨seconds, -, rfl⟩
  have horder : orderIn (eventAt entry seconds).payload = entry.order := orderIn_untimed entry
  simp only [horder]

/-- The events of entries tell, apart from their places, what happens in the entries. -/
theorem map_unnumbered {entries : List Entry} {events : List Event}
    (h : List.Forall₂ (IsTimedAt ρ segments) entries events) :
    events.map (fun event => (event.beats, event.kind, event.unnumbered.payload)) =
      entries.map fun entry => (entry.beat, entry.happening.kind, entry.happening.details) := by
  induction h with
  | nil => rfl
  | cons hevent _ ih =>
    obtain ⟨seconds, -, rfl⟩ := hevent
    rw [List.map_cons, List.map_cons, ih, unnumbered_eventAt]
    rfl

/-! ## Songs -/

variable {maxRepeat : ℤ} {sectionId : String} {cursor : Number}

/-- A cue with a start of its own leaves the cursor where it is. -/
theorem WalksItem.next_eq {cue : Cue} {line : ℤ} {next : Number}
    {happenings : List (Number × Happening)}
    (h : WalksItem ρ maxRepeat sectionId cursor (.cue cue line) next happenings)
    (hstart : ¬cue.params.LacksBeats "start_beats") : next = cursor := by
  cases h with
  | cueAt => rfl
  | cue hlacks => exact absurd hlacks hstart

/-- A cue with a start of its own does not disturb what is around it. If a song has events, then it
has events without such a cue, too. They are the events of the song other than those of the cue, in
the same sequence, with the same beats, seconds, kinds and details, but for their places in the
walk. The events of the cue are those whose places follow the places of what is walked through in
front of it, and they are what happens in the cue. -/
theorem schedule_without_cue {map : TempoMap} {song : Song} (before after : List Section)
    (part : Section) (first rest : List Item) {cue : Cue} {line : ℤ} {events : List Event}
    (hmap : TempoMap.IsOf .binary64 map.segments map)
    (hsong : song.sections = before ++ { part with items := first ++ .cue cue line :: rest } :: after)
    (hstart : ¬cue.params.LacksBeats "start_beats")
    (h : schedule .binary64 maxRepeat.toNat map song = .ok events) :
    ∃ cursor front own events',
      WalksSections .binary64 maxRepeat (.real (.finite 0))
        (before ++ [{ part with items := first }]) cursor front ∧
      WalksItem .binary64 maxRepeat part.id cursor (.cue cue line) cursor own ∧
      ((events.filter fun event =>
        isAmong front.length own.length (orderIn event.payload)).map fun event =>
          (event.beats, event.kind, event.unnumbered.payload)).Perm
        (own.map fun (beat, happening) => (beat, happening.kind, happening.details)) ∧
      schedule .binary64 maxRepeat.toNat map
        { song with sections := before ++ { part with items := first ++ rest } :: after } =
        .ok events' ∧
      (events.filter fun event =>
        !isAmong front.length own.length (orderIn event.payload)).map Event.unnumbered =
        events'.map Event.unnumbered := by
  obtain ⟨w, hwalk, hevents⟩ := (schedule_eq_ok_iff hmap).1 h
  have hpoints := lands_binary64.walk hwalk
  have hmiddle : first ++ .cue cue line :: rest = first ++ ([.cue cue line] ++ rest) := rfl
  rw [walk, hsong, hmiddle, walkSections_around] at hwalk
  obtain ⟨⟨cursor, front⟩, hfront, hwalk⟩ := bind_eq_ok.1 hwalk
  obtain ⟨⟨next, own⟩, hown, hwalk⟩ := bind_eq_ok.1 hwalk
  obtain ⟨others, hothers, hwalk⟩ := bind_eq_ok.1 hwalk
  obtain ⟨back, hback, hwalk⟩ := bind_eq_ok.1 hwalk
  obtain rfl := pure_eq_ok_iff.1 hwalk
  rw [walkItems_singleton] at hown
  have hitem := walkItem_eq_ok_iff.1 hown
  obtain rfl := hitem.next_eq hstart
  -- Without the cue the walk has the same front and the same back.
  have hwithout : walk .binary64 maxRepeat.toNat
      { song with sections := before ++ { part with items := first ++ ([] ++ rest) } :: after } =
      .ok ⟨back.cursor, front ++ (others.happenings ++ back.happenings)⟩ := by
    rw [walk, walkSections_around, hfront]
    have hnone : walkItems .binary64 maxRepeat.toNat part.id next [] = .ok ⟨next, []⟩ := rfl
    rw [ok_bind, hnone, ok_bind, hothers, ok_bind, hback]
    rfl
  have hsorted := map_filter_sorted (fun place => !isAmong front.length own.length place)
    (closeUp front.length own.length) hpoints ?_ (map_closeUp_entries back.cursor back.cursor)
  · obtain ⟨events', hevents', hsame⟩ := exists_events_renumber (closeUp front.length own.length)
      (filter_isTimedAt (fun place => !isAmong front.length own.length place) hevents)
    refine ⟨next, front, own, events', walkSections_eq_ok_iff.1 hfront, hitem, ?_,
      (schedule_eq_ok_iff hmap).2 ⟨_, hwithout, hsorted ▸ hevents'⟩, hsame⟩
    rw [map_unnumbered (filter_isTimedAt (isAmong front.length own.length) hevents),
      ← map_entriesFrom front.length own, ← filter_isAmong_entries back.cursor]
    exact ((List.mergeSort_perm _ _).filter _).map _
  · intro m n hm hn
    rw [Bool.not_eq_true'] at hm hn
    exact closeUp_lt_closeUp hm hn

/-- Of two events on one beat the one of the cue with a start of its own goes, and the other stays.
-/
theorem schedule_without_cue_lateFirst : ∃ map events events',
    TempoMap.ofSong .binary64 lateFirst = .ok map ∧
      schedule .binary64 (8 : ℤ).toNat map lateFirst = .ok events ∧
      schedule .binary64 (8 : ℤ).toNat map { lateFirst with sections := [⟨"verse", "Verse", [
        .lyric "la" 3,
        .cue ⟨"drum", none, [("duration_beats", .int 1), ("repeat", .int 2)], []⟩ 4], 1⟩] } =
        .ok events' ∧
      (events.filter fun event => !isAmong 1 1 (orderIn event.payload)).map Event.unnumbered =
        events'.map Event.unnumbered := by
  obtain ⟨events, hevents⟩ : ∃ events,
      scheduleAlone .binary64 (8 : ℤ).toNat lateFirst = .ok events :=
    exists_of_hasEvents (by decide +kernel)
  obtain ⟨map, hmap, hevents⟩ := bind_eq_ok.1 hevents
  obtain ⟨segments, -, -, rfl⟩ := TempoMap.ofSegments_eq_ok_iff.1 hmap
  have hstart : ¬Params.LacksBeats [("start_beats", .int 1)] "start_beats" := fun h =>
    absurd (h (.int 1) rfl rfl 1 rfl) (by norm_num)
  obtain ⟨cursor, front, own, events', hfront, hown, -, hevents', hsame⟩ := schedule_without_cue [] []
    ⟨"verse", "Verse", [], 1⟩ [] _ (TempoMap.isOf_fresh .binary64 segments) rfl hstart hevents
  -- In front of the cue there is the start of the section, and the cue happens once.
  have hstarted : walkSections .binary64 (8 : ℤ).toNat (.real (.finite 0))
      [⟨"verse", "Verse", [], 1⟩] =
      .ok ⟨.real (.finite 0), [(.real (.finite 0), .sectionStart "verse" "Verse" 1)]⟩ := rfl
  have hsameFront := (walkSections_eq_ok_iff.2 hfront).symm.trans hstarted
  obtain ⟨rfl, rfl⟩ := Walk.mk.inj (Except.ok.inj hsameFront)
  have htriggered : walkItem .binary64 (8 : ℤ).toNat "verse" (.real (.finite 0))
      (.cue ⟨"light", none, [("start_beats", .int 1)], []⟩ 2) =
      .ok ⟨.real (.finite 0), [(.real (.finite 1),
        .cue "verse" ⟨"light", none, [("start_beats", .int 1)], []⟩ 2 none)]⟩ := by decide +kernel
  have hsameItem := (walkItem_eq_ok_iff.2 hown).symm.trans htriggered
  obtain ⟨-, rfl⟩ := Walk.mk.inj (Except.ok.inj hsameItem)
  exact ⟨_, events, events', hmap, hevents, hevents', hsame⟩

end Timeline

end CueSheet
