import CueSheet.Proofs.Numeric.Order
import CueSheet.Timeline

/-!
# The walk through a song as a relation

What happens in a song, on which beats and in which order is said here by rules, one for each thing
that can stand in a song: sections, directions and lyrics are on the cursor and leave it; a cue is on
its own start if that can be used and leaves the cursor, or is on the cursor and moves it on by its
duration times its repeats. The walk has a result exactly if the rules give one, and it is the same
(`Timeline.walkSections_eq_ok_iff`).

The rules look at the parameters of a cue: a number of beats can be used if it is a finite number of
at least zero and no truth value (`Params.HasBeats`, `Params.LacksBeats`), and a number of repeats if
it is a whole number from one up to the limit (`Params.Repeats`).
-/

namespace CueSheet

variable {ρ : Rounding} {params : Params} {key : String} {maxRepeat : ℤ}

/-! ## Parameters of a cue -/

/-- A parameter is a number of beats that can be used, which is read as a real number. -/
def Params.HasBeats (ρ : Rounding) (params : Params) (key : String) (beats : Extended) : Prop :=
  ∃ x : Number, params.lookup key = some (.number x) ∧ x.isNumeric = true ∧
    (∃ q, x.toRat? = some q ∧ 0 ≤ q) ∧ x.toReal ρ = .ok beats

/-- There is no parameter that is a number of beats that can be used. -/
def Params.LacksBeats (params : Params) (key : String) : Prop :=
  ∀ x : Number, params.lookup key = some (.number x) → x.isNumeric = true →
    ∀ q, x.toRat? = some q → q < 0

/-- How long a cue lasts: as long as its duration says, if that can be used and is above zero. -/
inductive Params.Lasts (ρ : Rounding) (params : Params) : Number → Prop where
  /-- The duration is above zero. -/
  | usable {beats : Extended} (h : params.HasBeats ρ "duration_beats" beats)
    (hpositive : (Number.real beats).isPositive = true) : Lasts ρ params (.real beats)
  /-- The duration is zero. -/
  | zero {beats : Extended} (h : params.HasBeats ρ "duration_beats" beats)
    (hzero : (Number.real beats).isPositive = false) : Lasts ρ params (.real (.finite 0))
  /-- There is no duration that can be used. -/
  | unusable (h : params.LacksBeats "duration_beats") : Lasts ρ params (.real (.finite 0))

/-- How often a cue happens: as often as its number of repeats says, if that is within the limit. -/
inductive Params.Repeats (maxRepeat : ℤ) (params : Params) : ℕ → Prop where
  /-- The number of repeats is within the limit. -/
  | within {n : ℤ} (h : params.lookup "repeat" = some (.number (.int n))) (hpos : 1 ≤ n)
    (hle : n ≤ maxRepeat) : Repeats maxRepeat params n.toNat
  /-- There is no number of repeats within the limit. -/
  | once (h : ∀ n : ℤ, params.lookup "repeat" = some (.number (.int n)) → 1 ≤ n → maxRepeat < n) :
    Repeats maxRepeat params 1

namespace Timeline

/-! ## The rules -/

/-- The beats of a cue that starts on a beat and lasts, each with its index if the cue repeats: it
repeats if it lasts at all and happens more than once, and then at intervals of its duration. -/
inductive OnBeats (ρ : Rounding) (start duration : Number) (times : ℕ) :
    List (Number × Option ℕ) → Prop where
  /-- The cue repeats. -/
  | repeated (hlasts : duration.isPositive = true) (htimes : 1 < times)
    {beats : List (Number × Option ℕ)}
    (h : List.Forall₂ (fun (index : ℕ) beat => beat.2 = some index ∧
      ∃ shift, Number.mul ρ (.int index) duration = .ok shift ∧
        Number.add ρ start shift = .ok beat.1) (List.range times) beats) :
    OnBeats ρ start duration times beats
  /-- The cue happens once. -/
  | once (h : duration.isPositive = true → times ≤ 1) : OnBeats ρ start duration times [(start, none)]

/-- What happens in an item of a section, and where it leaves the cursor. -/
inductive WalksItem (ρ : Rounding) (maxRepeat : ℤ) (sectionId : String) (cursor : Number) :
    Item → Number → List (Number × Happening) → Prop where
  /-- A direction is on the cursor. -/
  | performance (text : String) (line : ℤ) : WalksItem ρ maxRepeat sectionId cursor
      (.performance text line) cursor [(cursor, .performance sectionId text line)]
  /-- A lyric is on the cursor. -/
  | lyric (text : String) (line : ℤ) : WalksItem ρ maxRepeat sectionId cursor
      (.lyric text line) cursor [(cursor, .lyric sectionId text line)]
  /-- A cue with a start of its own leaves the cursor where it is. -/
  | cueAt {cue : Cue} {line : ℤ} {start : Extended} {duration : Number} {times : ℕ}
    {beats : List (Number × Option ℕ)} (hstart : cue.params.HasBeats ρ "start_beats" start)
    (hlasts : cue.params.Lasts ρ duration) (hrepeats : cue.params.Repeats maxRepeat times)
    (hbeats : OnBeats ρ (.real start) duration times beats) :
    WalksItem ρ maxRepeat sectionId cursor (.cue cue line) cursor
      (beats.map fun (beat, repetition) => (beat, .cue sectionId cue line repetition))
  /-- Another cue is on the cursor and moves it on by its duration times its repeats. -/
  | cue {cue : Cue} {line : ℤ} {duration advance next : Number} {times : ℕ}
    {beats : List (Number × Option ℕ)} (hstart : cue.params.LacksBeats "start_beats")
    (hlasts : cue.params.Lasts ρ duration) (hrepeats : cue.params.Repeats maxRepeat times)
    (hbeats : OnBeats ρ cursor duration times beats)
    (hadvance : Number.mul ρ duration (.int times) = .ok advance)
    (hnext : Number.add ρ cursor advance = .ok next) :
    WalksItem ρ maxRepeat sectionId cursor (.cue cue line) next
      (beats.map fun (beat, repetition) => (beat, .cue sectionId cue line repetition))

/-- What happens in the items of a section, one after the other, and where they leave the cursor. -/
inductive WalksItems (ρ : Rounding) (maxRepeat : ℤ) (sectionId : String) :
    Number → List Item → Number → List (Number × Happening) → Prop where
  /-- Nothing happens without items. -/
  | nil (cursor : Number) : WalksItems ρ maxRepeat sectionId cursor [] cursor []
  /-- The other items start where the first one leaves the cursor. -/
  | cons {cursor next last : Number} {item : Item} {items : List Item}
    {first rest : List (Number × Happening)}
    (hitem : WalksItem ρ maxRepeat sectionId cursor item next first)
    (hitems : WalksItems ρ maxRepeat sectionId next items last rest) :
    WalksItems ρ maxRepeat sectionId cursor (item :: items) last (first ++ rest)

/-- What happens in sections, one after the other, and where they leave the cursor. -/
inductive WalksSections (ρ : Rounding) (maxRepeat : ℤ) :
    Number → List Section → Number → List (Number × Happening) → Prop where
  /-- Nothing happens without sections. -/
  | nil (cursor : Number) : WalksSections ρ maxRepeat cursor [] cursor []
  /-- A section is on the cursor, and its items start there. -/
  | cons {cursor next last : Number} {part : Section} {parts : List Section}
    {items rest : List (Number × Happening)}
    (hitems : WalksItems ρ maxRepeat part.id cursor part.items next items)
    (hparts : WalksSections ρ maxRepeat next parts last rest) :
    WalksSections ρ maxRepeat cursor (part :: parts) last
      ((cursor, .sectionStart part.id part.label part.line) :: items ++ rest)

/-! ## What is read from the parameters -/

/-- A number of at least zero is used as the real number that it is read as. -/
theorem usable?_of_nonneg {x : Number} {q : ℚ} (hnumeric : x.isNumeric = true)
    (hq : x.toRat? = some q) (hnonneg : 0 ≤ q) :
    usable? ρ (.number x) = x.toReal ρ >>= fun beats => .ok (some (.real beats)) := by
  have hnegative : ¬x.isNegative = true := mt (Number.isNegative_iff hq).1 (not_lt.2 hnonneg)
  cases x with
  | bool => cases hnumeric
  | int n =>
    obtain rfl := Option.some.inj hq
    exact if_neg (not_lt.2 (Int.cast_nonneg_iff.1 hnonneg))
  | real x =>
    have hfinite : x.isFinite = true := (Extended.isFinite_iff_toRat? x).2 ⟨q, hq⟩
    simp [usable?, hfinite, hnegative, Number.toReal, pure, Except.pure]

/-- Other values are not used. -/
theorem usable?_of_forall_neg {value : Value} (h : ∀ x : Number, value = .number x →
    x.isNumeric = true → ∀ q, x.toRat? = some q → q < 0) : usable? ρ value = .ok none := by
  cases value with
  | null | text | list | record => rfl
  | number x =>
    cases x with
    | bool => rfl
    | int n => exact if_pos (Int.cast_lt_zero.1 (h (.int n) rfl rfl n rfl))
    | real x =>
      have hunusable : ¬(x.isFinite && !(Number.real x).isNegative) = true := by
        rw [Bool.and_eq_true, Bool.not_eq_true', Extended.isFinite_iff_toRat?]
        rintro ⟨⟨q, hq⟩, hnegative⟩
        rw [(Number.isNegative_iff (x := .real x) hq).2 (h (.real x) rfl rfl q hq)] at hnegative
        cases hnegative
      simp only [usable?, hunusable]
      rfl

/-- What is used of a parameter is nothing, or the real number that it is read as. -/
theorem usableParam?_cases (params : Params) (key : String) :
    (params.LacksBeats key ∧ ∀ ρ, usableParam? ρ params key = .ok none) ∨
      ∃ (x : Number) (q : ℚ), params.lookup key = some (.number x) ∧ x.isNumeric = true ∧
        x.toRat? = some q ∧ 0 ≤ q ∧
        ∀ ρ, usableParam? ρ params key = x.toReal ρ >>= fun beats => .ok (some (.real beats)) := by
  unfold usableParam?
  -- Whether a number can be used is told before it is rounded.
  by_cases hlacks : params.LacksBeats key
  · refine .inl ⟨hlacks, fun ρ => ?_⟩
    cases hvalue : params.lookup key with
    | none => rfl
    | some value =>
      exact usable?_of_forall_neg fun x hx => hlacks x (hvalue.trans (congrArg some hx))
  · unfold Params.LacksBeats at hlacks
    push Not at hlacks
    obtain ⟨x, hvalue, hnumeric, q, hq, hnonneg⟩ := hlacks
    refine .inr ⟨x, q, hvalue, hnumeric, hq, hnonneg, fun ρ => ?_⟩
    rw [hvalue]
    exact usable?_of_nonneg hnumeric hq hnonneg

/-- A parameter is not both a number of beats that can be used and none. -/
theorem not_lacksBeats {beats : Extended} (h : params.HasBeats ρ key beats) :
    ¬params.LacksBeats key := by
  obtain ⟨x, hvalue, hnumeric, ⟨q, hq, hnonneg⟩, -⟩ := h
  exact fun hlacks => absurd (hlacks x hvalue hnumeric q hq) (not_lt.2 hnonneg)

/-- A parameter is used if it is a number of beats that can be. -/
theorem usableParam?_eq_some_iff {x : Number} :
    usableParam? ρ params key = .ok (some x) ↔
      ∃ beats, x = .real beats ∧ params.HasBeats ρ key beats := by
  obtain ⟨hlacks, hnone⟩ | ⟨y, q, hvalue, hnumeric, hq, hnonneg, hsome⟩ :=
    usableParam?_cases params key
  · rw [hnone]
    exact iff_of_false nofun fun ⟨_, _, hbeats⟩ => not_lacksBeats hbeats hlacks
  · rw [hsome, bind_eq_ok]
    constructor
    · rintro ⟨beats, hbeats, hx⟩
      obtain rfl := Option.some.inj (Except.ok.inj hx)
      exact ⟨beats, rfl, y, hvalue, hnumeric, ⟨q, hq, hnonneg⟩, hbeats⟩
    · rintro ⟨beats, rfl, z, hvalue', -, -, hbeats⟩
      obtain rfl := Value.number.inj (Option.some.inj (hvalue.symm.trans hvalue'))
      exact ⟨beats, hbeats, rfl⟩

/-- No parameter is used if none can be. -/
theorem usableParam?_eq_none_iff :
    usableParam? ρ params key = .ok none ↔ params.LacksBeats key := by
  obtain ⟨hlacks, hnone⟩ | ⟨y, q, hvalue, hnumeric, hq, hnonneg, hsome⟩ :=
    usableParam?_cases params key
  · exact iff_of_true (hnone ρ) hlacks
  · refine iff_of_false ?_ fun hlacks =>
      absurd (hlacks y hvalue hnumeric q hq) (not_lt.2 hnonneg)
    rw [hsome, bind_eq_ok]
    rintro ⟨beats, -, ⟨⟩⟩

/-- A duration is read as the rules say. -/
theorem duration_eq_ok_iff {d : Number} : duration ρ params = .ok d ↔ params.Lasts ρ d := by
  unfold duration
  rw [bind_eq_ok]
  constructor
  · rintro ⟨_ | x, hx, hd⟩
    · obtain rfl := pure_eq_ok_iff.1 hd
      exact .unusable (usableParam?_eq_none_iff.1 hx)
    · obtain ⟨beats, rfl, hbeats⟩ := usableParam?_eq_some_iff.1 hx
      obtain rfl := pure_eq_ok_iff.1 hd
      rw [Option.filter_some]
      split_ifs with hpositive
      · exact .usable hbeats hpositive
      · exact .zero hbeats (Bool.eq_false_of_not_eq_true hpositive)
  · intro h
    cases h with
    | usable hbeats hpositive =>
      exact ⟨_, usableParam?_eq_some_iff.2 ⟨_, rfl, hbeats⟩, by simp [Option.filter_some, hpositive]⟩
    | zero hbeats hzero =>
      exact ⟨_, usableParam?_eq_some_iff.2 ⟨_, rfl, hbeats⟩, by simp [Option.filter_some, hzero]⟩
    | unusable hlacks => exact ⟨none, usableParam?_eq_none_iff.2 hlacks, rfl⟩

/-- A number of repeats is read as the rules say. -/
theorem repeats_eq_iff {times : ℕ} :
    repeats maxRepeat.toNat params = times ↔ params.Repeats maxRepeat times := by
  -- A limit below one admits no number of repeats, and then the limit as a count admits none either.
  by_cases hwithin : ∃ n : ℤ, params.lookup "repeat" = some (.number (.int n)) ∧ 1 ≤ n ∧ n ≤ maxRepeat
  · obtain ⟨n, hvalue, hpos, hle⟩ := hwithin
    have hrepeats : repeats maxRepeat.toNat params = n.toNat := by
      unfold repeats
      rw [hvalue]
      exact if_pos ⟨hpos, by omega⟩
    rw [hrepeats]
    constructor
    · rintro rfl
      exact .within hvalue hpos hle
    · intro h
      cases h with
      | within hvalue' =>
        rw [hvalue] at hvalue'
        cases hvalue'
        rfl
      | once hnone => exact absurd (hnone n hvalue hpos) (not_lt.2 hle)
  · push Not at hwithin
    have hrepeats : repeats maxRepeat.toNat params = 1 := by
      unfold repeats
      split
      next n hvalue =>
        refine if_neg fun ⟨hpos, hle⟩ => ?_
        have := hwithin n hvalue hpos
        omega
      next => rfl
    rw [hrepeats]
    constructor
    · rintro rfl
      exact .once hwithin
    · intro h
      cases h with
      | within hvalue hpos hle => exact absurd (hwithin _ hvalue hpos) (not_lt.2 hle)
      | once => rfl

/-! ## The walk -/

variable {sectionId : String} {cursor next : Number} {happenings : List (Number × Happening)}

/-- The beats of a cue are those of the rules. -/
theorem beatsOf_eq_ok_iff {start duration : Number} {times : ℕ} {beats : List (Number × Option ℕ)} :
    beatsOf ρ start duration times = .ok beats ↔ OnBeats ρ start duration times beats := by
  unfold beatsOf
  by_cases hrepeats : (duration.isPositive && decide (1 < times)) = true
  · obtain ⟨hlasts, htimes⟩ := Bool.and_eq_true_iff.1 hrepeats
    have htimes : 1 < times := of_decide_eq_true htimes
    -- One repeat is two operations that can fail, the shift and the sum.
    have hstep (index : ℕ) (beat : Number × Option ℕ) :
        (do return (← Number.add ρ start (← Number.mul ρ (.int index) duration), some index)) =
            (.ok beat : Except Fault (Number × Option ℕ)) ↔
          beat.2 = some index ∧ ∃ shift, Number.mul ρ (.int index) duration = .ok shift ∧
            Number.add ρ start shift = .ok beat.1 := by
      simp only [bind_eq_ok, pure_eq_ok_iff]
      constructor
      · rintro ⟨shift, hshift, sum, hsum, rfl⟩
        exact ⟨rfl, shift, hshift, hsum⟩
      · rintro ⟨hindex, shift, hshift, hsum⟩
        exact ⟨shift, hshift, beat.1, hsum, Prod.ext rfl hindex.symm⟩
    rw [if_pos hrepeats, mapM_eq_ok_iff]
    simp only [hstep]
    constructor
    · exact .repeated hlasts htimes
    · intro h
      cases h with
      | repeated _ _ h => exact h
      | once h => exact absurd (h hlasts) (not_le.2 htimes)
  · rw [if_neg hrepeats, pure_eq_ok_iff]
    have honce : duration.isPositive = true → times ≤ 1 := fun hlasts => by
      simpa [hlasts] using hrepeats
    constructor
    · rintro rfl
      exact .once honce
    · intro h
      cases h with
      | repeated hlasts htimes => exact absurd (honce hlasts) (not_le.2 htimes)
      | once => rfl

/-- The walk through a cue is that of the rules. -/
theorem walkCue_eq_ok_iff {cue : Cue} {line : ℤ} :
    walkCue ρ maxRepeat.toNat sectionId cursor cue line = .ok ⟨next, happenings⟩ ↔
      WalksItem ρ maxRepeat sectionId cursor (.cue cue line) next happenings := by
  unfold walkCue
  simp only [bind_eq_ok]
  constructor
  · rintro ⟨duration, hduration, start?, hstart, beats, hbeats, h⟩
    have hlasts := duration_eq_ok_iff.1 hduration
    have hrepeats := repeats_eq_iff.1 (rfl : repeats maxRepeat.toNat cue.params = _)
    have hbeats := beatsOf_eq_ok_iff.1 hbeats
    -- Only a cue without a start of its own goes on to move the cursor.
    cases start? with
    | some start =>
      obtain ⟨start, rfl, hown⟩ := usableParam?_eq_some_iff.1 hstart
      obtain ⟨rfl, rfl⟩ := Walk.mk.inj (pure_eq_ok_iff.1 h)
      exact .cueAt hown hlasts hrepeats hbeats
    | none =>
      obtain ⟨advance, hadvance, h⟩ := bind_eq_ok.1 h
      obtain ⟨later, hlater, h⟩ := bind_eq_ok.1 h
      obtain ⟨rfl, rfl⟩ := Walk.mk.inj (pure_eq_ok_iff.1 h)
      exact .cue (usableParam?_eq_none_iff.1 hstart) hlasts hrepeats hbeats hadvance hlater
  · intro h
    cases h with
    | cueAt hstart hlasts hrepeats hbeats =>
      obtain rfl := repeats_eq_iff.2 hrepeats
      exact ⟨_, duration_eq_ok_iff.2 hlasts, _, usableParam?_eq_some_iff.2 ⟨_, rfl, hstart⟩, _,
        beatsOf_eq_ok_iff.2 hbeats, rfl⟩
    | cue hstart hlasts hrepeats hbeats hadvance hnext =>
      obtain rfl := repeats_eq_iff.2 hrepeats
      refine ⟨_, duration_eq_ok_iff.2 hlasts, _, usableParam?_eq_none_iff.2 hstart, _,
        beatsOf_eq_ok_iff.2 hbeats, ?_⟩
      dsimp only
      rw [hadvance, ok_bind, hnext]
      rfl

/-- The walk through an item is that of the rules. -/
theorem walkItem_eq_ok_iff {item : Item} :
    walkItem ρ maxRepeat.toNat sectionId cursor item = .ok ⟨next, happenings⟩ ↔
      WalksItem ρ maxRepeat sectionId cursor item next happenings := by
  cases item with
  | cue cue line => exact walkCue_eq_ok_iff
  | raw text => exact iff_of_false nofun nofun
  | performance text line | lyric text line =>
    rw [walkItem, pure_eq_ok_iff, Walk.mk.injEq]
    constructor
    · rintro ⟨rfl, rfl⟩
      constructor
    · rintro ⟨⟩
      exact ⟨rfl, rfl⟩

/-- The walk through items is that of the rules. -/
theorem walkItems_eq_ok_iff {items : List Item} :
    walkItems ρ maxRepeat.toNat sectionId cursor items = .ok ⟨next, happenings⟩ ↔
      WalksItems ρ maxRepeat sectionId cursor items next happenings := by
  induction items generalizing cursor happenings with
  | nil =>
    rw [walkItems, pure_eq_ok_iff, Walk.mk.injEq]
    constructor
    · rintro ⟨rfl, rfl⟩
      exact .nil cursor
    · rintro ⟨⟩
      exact ⟨rfl, rfl⟩
  | cons item items ih =>
    simp only [walkItems, bind_eq_ok, pure_eq_ok_iff]
    constructor
    · rintro ⟨⟨middle, first⟩, hfirst, ⟨last, rest⟩, hrest, h⟩
      obtain ⟨rfl, rfl⟩ := Walk.mk.inj h
      exact .cons (walkItem_eq_ok_iff.1 hfirst) (ih.1 hrest)
    · rintro (_ | ⟨hitem, hitems⟩)
      exact ⟨_, walkItem_eq_ok_iff.2 hitem, _, ih.2 hitems, rfl⟩

/-- The walk through sections is that of the rules. -/
theorem walkSections_eq_ok_iff {parts : List Section} :
    walkSections ρ maxRepeat.toNat cursor parts = .ok ⟨next, happenings⟩ ↔
      WalksSections ρ maxRepeat cursor parts next happenings := by
  induction parts generalizing cursor happenings with
  | nil =>
    rw [walkSections, pure_eq_ok_iff, Walk.mk.injEq]
    constructor
    · rintro ⟨rfl, rfl⟩
      exact .nil cursor
    · rintro ⟨⟩
      exact ⟨rfl, rfl⟩
  | cons part parts ih =>
    simp only [walkSections, bind_eq_ok, pure_eq_ok_iff]
    constructor
    · rintro ⟨⟨middle, items⟩, hitems, ⟨last, rest⟩, hrest, h⟩
      obtain ⟨rfl, rfl⟩ := Walk.mk.inj h
      exact .cons (walkItems_eq_ok_iff.1 hitems) (ih.1 hrest)
    · rintro (_ | ⟨hitems, hparts⟩)
      exact ⟨_, walkItems_eq_ok_iff.2 hitems, _, ih.2 hparts, rfl⟩

end Timeline

end CueSheet
