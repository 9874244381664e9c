import CueSheet.Proofs.Timeline.Around
import CueSheet.Proofs.Timeline.Refused
import CueSheet.Proofs.Timeline.Retime

/-!
# Repeats that are written out

A cue that repeats is on the cursor and on multiples of its duration behind it, and moves the cursor
on by all of them at once. Copies of the cue that do not repeat, one behind the other, move it on
one by one. With exact arithmetic both are on the same beats (`Timeline.walkItem_repeated`,
`Timeline.walkItems_copies`), and so a song has the same events if the repeats are written out
(`Timeline.schedule_written_out`).

Both walks leave the cursor at the same number, and not only at the same quantity, because the
cursor of an exact walk is never the zero from below (`Timeline.exists_cursor`).
-/

namespace CueSheet

/-- The second of two happenings is the first one, or it is the cue without its repeats where the
first one is a repetition of the cue. -/
inductive Happening.WrittenOut (sectionId : String) (cue : Cue) (line : ℤ) :
    Happening → Happening → Prop where
  /-- The same happens. -/
  | same (happening : Happening) : WrittenOut sectionId cue line happening happening
  /-- A repetition is written out. -/
  | repetition (index : ℕ) : WrittenOut sectionId cue line
    (.cue sectionId cue line (some index)) (.cue sectionId (cue.without "repeat") line none)

/-- Two events have the same beats, the same seconds and the same place in the walk, and what
happens in them is the same, or is written out in the second one. -/
def Event.WrittenOut (sectionId : String) (cue : Cue) (line : ℤ) (event event' : Event) : Prop :=
  ∃ beat order seconds happening happening',
    Happening.WrittenOut sectionId cue line happening happening' ∧
      event = Timeline.eventAt ⟨beat, order, happening⟩ seconds ∧
      event' = Timeline.eventAt ⟨beat, order, happening'⟩ seconds

namespace Timeline

variable {ρ : Rounding} {limit : ℕ} {maxRepeat : ℤ} {sectionId : String} {cursor next : Number}
  {happenings : List (Number × Happening)} {cue : Cue} {line n : ℤ} {d : ℚ}

/-! ## Times without a sign -/

/-- With exact arithmetic a cue lasts a number of beats that is not the zero from below. -/
theorem exists_of_lasts {params : Params} {duration : Number}
    (h : params.Lasts .exact duration) : ∃ d : ℚ, 0 ≤ d ∧ duration = .real (.finite d) := by
  cases h with
  | zero | unusable => exact ⟨0, le_rfl, rfl⟩
  | @usable beats hbeats hpositive =>
    obtain ⟨q, hq, hnonneg⟩ := lands_exact.exists_of_hasBeats hbeats
    obtain rfl | ⟨rfl, rfl⟩ := Extended.eq_finite_or_negZero hq
    · exact ⟨q, hnonneg, rfl⟩
    · cases hpositive

/-- An item leaves the cursor at a number that is not the zero from below. -/
theorem exists_next {item : Item}
    (h : WalksItem .exact maxRepeat sectionId cursor item next happenings)
    (hcursor : ∃ c : ℚ, cursor = .real (.finite c)) : ∃ c : ℚ, next = .real (.finite c) := by
  cases h with
  | performance | lyric | cueAt => exact hcursor
  | @cue _ _ _ _ _ times _ _ hlasts _ _ hadvance hnext =>
    obtain ⟨c, rfl⟩ := hcursor
    obtain ⟨d, hd, rfl⟩ := exists_of_lasts hlasts
    obtain rfl := Except.ok.inj ((Number.mul_natCast_exact times hd).symm.trans hadvance)
    exact ⟨c + d * times, (Except.ok.inj hnext).symm⟩

/-- Items leave the cursor at a number that is not the zero from below. -/
theorem exists_next_items {items : List Item}
    (h : WalksItems .exact maxRepeat sectionId cursor items next happenings)
    (hcursor : ∃ c : ℚ, cursor = .real (.finite c)) : ∃ c : ℚ, next = .real (.finite c) := by
  induction h with
  | nil => exact hcursor
  | cons hitem _ ih => exact ih (exists_next hitem hcursor)

/-- Sections leave the cursor at a number that is not the zero from below. -/
theorem exists_cursor {parts : List Section}
    (h : WalksSections .exact maxRepeat cursor parts next happenings)
    (hcursor : ∃ c : ℚ, cursor = .real (.finite c)) : ∃ c : ℚ, next = .real (.finite c) := by
  induction h with
  | nil => exact hcursor
  | cons hitems _ ih => exact ih (exists_next_items hitems hcursor)

/-! ## One cue that repeats, and copies that do not -/

/-- Without another parameter a cue lasts as long. -/
theorem lasts_without {key : String} {duration : Number} (hkey : "duration_beats" ≠ key)
    (h : cue.params.Lasts ρ duration) : (cue.without key).params.Lasts ρ duration := by
  rw [← duration_eq_ok_iff, Timeline.duration] at h ⊢
  rw [usableParam?_without hkey, h]

/-- Without another parameter a cue still has no start. -/
theorem lacksBeats_without {key other : String} (hkey : key ≠ other)
    (h : cue.params.LacksBeats key) : (cue.without other).params.LacksBeats key := by
  rw [← usableParam?_eq_none_iff (ρ := .exact)] at h ⊢
  rw [usableParam?_without hkey, h]

/-- A cue that repeats is on multiples of its duration behind the cursor, and moves it on by all of
them. -/
theorem walkItem_repeated {c : ℚ} (hstart : cue.params.LacksBeats "start_beats")
    (hlasts : cue.params.Lasts .exact (.real (.finite d))) (hd : 0 < d)
    (hrepeat : cue.params.lookup "repeat" = some (.int n)) (htwo : 2 ≤ n) (hlimit : n ≤ maxRepeat) :
    walkItem .exact maxRepeat.toNat sectionId (.real (.finite c)) (.cue cue line) =
      .ok ⟨.real (.finite (c + d * n.toNat)), (List.range n.toNat).map fun (index : ℕ) =>
        (.real (.finite (c + index * d)), .cue sectionId cue line (some index))⟩ := by
  have hpositive : (Number.real (.finite d)).isPositive = true := (Number.isPositive_iff rfl).2 hd
  have hbeats : OnBeats .exact (.real (.finite c)) (.real (.finite d)) n.toNat
      ((List.range n.toNat).map fun (index : ℕ) =>
        (.real (.finite (c + index * d)), some index)) := by
    refine .repeated hpositive (by omega) ?_
    rw [List.forall₂_map_right_iff]
    exact List.forall₂_same.2 fun index _ => ⟨rfl, _, Number.natCast_mul_exact index hd.le, rfl⟩
  have hrepeats : cue.params.Repeats maxRepeat n.toNat := .within hrepeat (by omega) hlimit
  have hwalks : WalksItem .exact maxRepeat sectionId (.real (.finite c)) (.cue cue line)
      (.real (.finite (c + d * n.toNat))) _ :=
    .cue hstart hlasts hrepeats hbeats (Number.mul_natCast_exact n.toNat hd.le) rfl
  rw [List.map_map] at hwalks
  exact walkItem_eq_ok_iff.2 hwalks

/-- Copies of an item that is on the cursor and moves it on by some beats are on multiples of these
beats behind the cursor, and move it on by all of them. -/
theorem walkItems_copies {item : Item} {happening : Happening} {c : ℚ}
    (hitem : ∀ c : ℚ, walkItem .exact limit sectionId (.real (.finite c)) item =
      .ok ⟨.real (.finite (c + d)), [(.real (.finite c), happening)]⟩) (count : ℕ) :
    walkItems .exact limit sectionId (.real (.finite c)) (List.replicate count item) =
      .ok ⟨.real (.finite (c + d * count)), (List.range count).map fun (index : ℕ) =>
        (.real (.finite (c + index * d)), happening)⟩ := by
  induction count generalizing c with
  | zero => simp [walkItems, pure, Except.pure]
  | succ count ih =>
    have hlast : c + d + d * (count : ℚ) = c + d * ((count + 1 : ℕ) : ℚ) := by
      push_cast
      ring
    have hbeat (index : ℕ) : c + d + (index : ℚ) * d = c + ((index + 1 : ℕ) : ℚ) * d := by
      push_cast
      ring
    rw [List.replicate_succ, walkItems, hitem, ok_bind, ih, ok_bind, List.range_succ_eq_map,
      List.map_cons, List.map_map, Nat.cast_zero, zero_mul, add_zero]
    simp only [Walk.append, hlast, hbeat]
    rfl

/-- A cue without its repeats is on the cursor, and moves it on by its duration. -/
theorem walkItem_without_repeat (hstart : cue.params.LacksBeats "start_beats")
    (hlasts : cue.params.Lasts .exact (.real (.finite d))) (hd : 0 < d) (c : ℚ) :
    walkItem .exact maxRepeat.toNat sectionId (.real (.finite c))
        (.cue (cue.without "repeat") line) =
      .ok ⟨.real (.finite (c + d)),
        [(.real (.finite c), .cue sectionId (cue.without "repeat") line none)]⟩ := by
  have hnone : (cue.without "repeat").params.lookup "repeat" = none := by
    rw [Cue.without, lookup_filter_ne, if_pos rfl]
  have hrepeats : (cue.without "repeat").params.Repeats maxRepeat 1 :=
    .once fun n hn => absurd (hn.symm.trans hnone) (Option.some_ne_none _)
  have hadvance : Number.mul .exact (.real (.finite d)) (.int (1 : ℕ)) =
      .ok (.real (.finite d)) := by
    rw [Number.mul_natCast_exact 1 hd.le, Nat.cast_one, mul_one]
  exact walkItem_eq_ok_iff.2 (.cue (lacksBeats_without (by decide) hstart)
    (lasts_without (by decide) hlasts) hrepeats (.once fun _ => le_rfl) hadvance rfl)

/-! ## Songs -/

/-- Happenings on the same beats, one written out from the other. -/
def BeatsWrittenOut (sectionId : String) (cue : Cue) (line : ℤ)
    (happenings happenings' : List (Number × Happening)) : Prop :=
  List.Forall₂ (fun x x' => x.1 = x'.1 ∧ Happening.WrittenOut sectionId cue line x.2 x'.2)
    happenings happenings'

/-- What happens is the same as itself. -/
theorem beatsWrittenOut_refl (happenings : List (Number × Happening)) :
    BeatsWrittenOut sectionId cue line happenings happenings :=
  List.forall₂_same.2 fun happening _ => ⟨rfl, .same happening.2⟩

/-- Walks on the same beats, one written out from the other, have such events. -/
theorem schedule_agree_of_walk {map : TempoMap} {song song' : Song}
    (hmap : TempoMap.IsOf ρ map.segments map)
    (h : Agree Eq (fun w w' => BeatsWrittenOut sectionId cue line w.happenings w'.happenings)
      (walk ρ limit song) (walk ρ limit song')) :
    Agree Eq (List.Forall₂ (Event.WrittenOut sectionId cue line)) (schedule ρ limit map song)
      (schedule ρ limit map song') := by
  refine h.bind fun w w' hhappenings => ?_
  have hentries : List.Forall₂ (fun entry entry' : Entry => entry.beat = entry'.beat ∧
      entry.order = entry'.order ∧
      Happening.WrittenOut sectionId cue line entry.happening entry'.happening)
      (entries w) (entries w') := by
    rw [entries, entries, List.forall₂_map_left_iff, List.forall₂_map_right_iff]
    exact (forall₂_zipIdx hhappenings 0).imp fun _ _ h => ⟨h.1.1, h.2, h.1.2⟩
  -- The beats are the same, so both are sorted and timed in the same way.
  have hsorted : List.Forall₂ _ (sorted (entries w)) (sorted (entries w')) :=
    forall₂_mergeSort hentries fun _ _ _ _ hfirst hsecond => by rw [hfirst.1, hsecond.1]
  rw [run_times hmap, run_times hmap]
  refine .mapM (hsorted.imp ?_)
  rintro ⟨beat, order, happening⟩ ⟨beat', order', happening'⟩ ⟨hbeat, horder, hhappening⟩
  dsimp only at hbeat horder hhappening
  subst hbeat horder
  exact (Agree.refl fun _ _ => rfl).bind_same fun seconds _ =>
    .ok ⟨beat, order, seconds, happening, happening', hhappening, rfl, rfl⟩

/-- Repeats may be written out. Let a cue of a song have no start of its own, last, and repeat some
times within the limit. With exact arithmetic the song where as many copies of the cue without its
repeats stand in its place has the same events, or fails alike: the events have the same beats, the
same seconds and the same details, but that those of the copies are not repetitions. -/
theorem schedule_written_out {map : TempoMap} {song : Song} (before after : List Section)
    (part : Section) (first rest : List Item) (cue : Cue) {duration : Number}
    (hmap : TempoMap.IsOf .exact map.segments map)
    (hsong : song.sections = before ++ { part with items := first ++ .cue cue line :: rest } :: after)
    (hstart : cue.params.LacksBeats "start_beats") (hlasts : cue.params.Lasts .exact duration)
    (hpositive : duration.isPositive = true)
    (hrepeat : cue.params.lookup "repeat" = some (.int n)) (htwo : 2 ≤ n) (hlimit : n ≤ maxRepeat) :
    Agree Eq (List.Forall₂ (Event.WrittenOut part.id cue line))
      (schedule .exact maxRepeat.toNat map song)
      (schedule .exact maxRepeat.toNat map { song with sections := before ++
        { part with items := first ++
          (List.replicate n.toNat (.cue (cue.without "repeat") line) ++ rest) } :: after }) := by
  obtain ⟨d, -, rfl⟩ := exists_of_lasts hlasts
  have hd : 0 < d := (Number.isPositive_iff rfl).1 hpositive
  have hmiddle : first ++ .cue cue line :: rest = first ++ ([.cue cue line] ++ rest) := rfl
  refine schedule_agree_of_walk hmap ?_
  rw [walk, walk, hsong, hmiddle, walkSections_around, walkSections_around]
  refine (Agree.refl fun _ _ => rfl).bind_same fun front hfront => ?_
  obtain ⟨c, hc⟩ := exists_cursor (walkSections_eq_ok_iff.1 hfront) ⟨0, rfl⟩
  rw [hc, walkItems_singleton, walkItem_repeated hstart hlasts hd hrepeat htwo hlimit, ok_bind,
    walkItems_copies (walkItem_without_repeat hstart hlasts hd), ok_bind]
  -- Both leave the cursor at the same beat, and what is behind them is the same.
  refine (Agree.refl fun _ _ => rfl).bind_same fun others _ => ?_
  refine (Agree.refl fun _ _ => rfl).bind_same fun back _ => .ok ?_
  refine List.rel_append (beatsWrittenOut_refl _) (List.rel_append ?_ (beatsWrittenOut_refl _))
  rw [List.forall₂_map_left_iff, List.forall₂_map_right_iff]
  exact List.forall₂_same.2 fun index _ => ⟨rfl, .repetition index⟩

/-- A cue that happens twice is written out as two cues, beside one that is on the beat of the
second of them.
-/
theorem schedule_written_out_lateFirst : ∃ map events events',
    TempoMap.ofSegments .exact [⟨.int 0, .int 120⟩] = .ok map ∧
      schedule .exact (8 : ℤ).toNat map lateFirst = .ok events ∧
      schedule .exact (8 : ℤ).toNat map { lateFirst with sections := [⟨"verse", "Verse", [
        .cue ⟨"light", none, [("start_beats", .int 1)], []⟩ 2, .lyric "la" 3,
        .cue ⟨"drum", none, [("duration_beats", .int 1)], []⟩ 4,
        .cue ⟨"drum", none, [("duration_beats", .int 1)], []⟩ 4], 1⟩] } = .ok events' ∧
      List.Forall₂ (Event.WrittenOut "verse"
        ⟨"drum", none, [("duration_beats", .int 1), ("repeat", .int 2)], []⟩ 4) events events' := by
  have hbuilt : TempoMap.ofSegments .exact [⟨.int 0, .int 120⟩] =
      .ok (TempoMap.fresh [⟨.int 0, .int 120⟩]) := by decide +kernel
  have hwalk : walk .exact (8 : ℤ).toNat lateFirst =
      .ok ⟨.real (.finite 2), lateFirstHappenings⟩ := by decide +kernel
  obtain ⟨hmap, hvalid⟩ := TempoMap.isValid_of_ofSegments hbuilt
  obtain ⟨events, hevents⟩ := exists_schedule_exact hmap hvalid hwalk
  have hlasts : Params.Lasts .exact [("duration_beats", .int 1), ("repeat", .int 2)]
      (.real (.finite 1)) :=
    .usable ⟨.int 1, rfl, rfl, ⟨1, rfl, zero_le_one⟩, rfl⟩ (by decide +kernel)
  have hstart : Params.LacksBeats [("duration_beats", .int 1), ("repeat", .int 2)] "start_beats" :=
    fun x hx => absurd (hx : none = some _) nofun
  have hpositive : (Number.real (.finite 1)).isPositive = true := by decide +kernel
  have hlimit : (2 : ℤ) ≤ 8 := by decide
  obtain ⟨events', hevents', hsame⟩ := (schedule_written_out [] [] ⟨"verse", "Verse", [], 1⟩
    [.cue ⟨"light", none, [("start_beats", .int 1)], []⟩ 2, .lyric "la" 3] []
    ⟨"drum", none, [("duration_beats", .int 1), ("repeat", .int 2)], []⟩ hmap rfl hstart hlasts
    hpositive rfl le_rfl hlimit).exists_ok hevents
  exact ⟨_, events, events', hbuilt, hevents, hevents', hsame⟩

end Timeline

end CueSheet
