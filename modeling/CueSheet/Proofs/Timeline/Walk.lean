import CueSheet.Proofs.Cue.Plain
import CueSheet.Proofs.Document.Sound
import CueSheet.Proofs.Numeric.Clip
import CueSheet.Proofs.Shadow
import CueSheet.Proofs.Timeline.Source

/-!
# Walks without a greatest magnitude

The cursor of a walk and the beats of the cues are sums and products of real numbers. The walk with
the rounding of binary64 shadows the one with the rounding of the same precision that never
overflows: it fails exactly if some cue holds a whole number that is beyond the real numbers
(`Cue.Fits`), and otherwise its beats are the unlimited ones as far as these are below the greatest
magnitude, and infinite from there on (`Timeline.shadows_walk`).
-/

namespace CueSheet

/-- Real numbers of which the second, that of binary64, is the first one clipped. -/
def Number.Clips (x y : Number) : Prop :=
  ∃ u v, x = .real u ∧ y = .real v ∧ CueSheet.Clips u v

/-- A whole number under a key is not beyond the real numbers. -/
def Params.Fits (params : Params) (key : String) : Prop :=
  ∀ n : ℤ, params.lookup key = some (.number (.int n)) → (n : ℚ) < overflowAt

/-- A cue holds no whole number beyond the real numbers where a real one is asked for: neither its
duration, nor its start, nor the number of its repeats where it multiplies the duration. -/
structure Cue.Fits (maxRepeat : ℕ) (cue : Cue) : Prop where
  /-- The duration fits. -/
  duration : cue.params.Fits "duration_beats"
  /-- The start fits. -/
  start : cue.params.Fits "start_beats"
  /-- If the cue lasts, the index of its last repetition fits. -/
  last : ∀ duration, Timeline.duration .unlimited cue.params = .ok duration →
    duration.isPositive = true →
      ((Timeline.repeats maxRepeat cue.params - 1 : ℕ) : ℚ) < overflowAt
  /-- If the cue moves the cursor, the number of its repeats fits. -/
  advance : Timeline.usableParam? .unlimited cue.params "start_beats" = .ok none →
    ((Timeline.repeats maxRepeat cue.params : ℕ) : ℚ) < overflowAt

/-- An item fits unless it is a cue that does not. -/
def Item.Fits (maxRepeat : ℕ) : Item → Prop
  | .cue c _ => c.Fits maxRepeat
  | .performance .. | .lyric .. | .raw _ => True

namespace Timeline

variable {params : Params} {maxRepeat : ℕ}

/-! ## Parameters of a cue -/

/-- What can be used of the value of a parameter: nothing, a real number that is the same with and
without a greatest magnitude, or a whole number that is beyond the real numbers. -/
theorem usableParam_cases (hplain : ∀ param ∈ params, param.2.IsPlain) (key : String) :
    (params.Fits key ∧ usableParam? .unlimited params key = .ok none ∧
        usableParam? .binary64 params key = .ok none) ∨
      (∃ x q, params.Fits key ∧ x.toRat? = some q ∧ 0 ≤ q ∧ x.IsBinary64 ∧
        usableParam? .unlimited params key = .ok (some (.real x)) ∧
        usableParam? .binary64 params key = .ok (some (.real x))) ∨
      ∃ q : ℚ, ¬params.Fits key ∧ 0 ≤ q ∧
        usableParam? .unlimited params key = .ok (some (.real (Rounding.unlimited q))) ∧
        Fails (usableParam? .binary64 params key) := by
  obtain ⟨hlacks, hnone⟩ | ⟨x, q, hvalue, hnumeric, hq, hnonneg, hsome⟩ :=
    usableParam?_cases params key
  · have hfits : params.Fits key := fun n hn =>
      (hlacks (.int n) hn rfl n (Number.toRat?_int n)).trans overflowAt_pos
    exact .inl ⟨hfits, hnone _, hnone _⟩
  rw [hsome, hsome, Params.Fits, hvalue]
  cases x with
  | bool => cases hnumeric
  | real x =>
    have hbinary := (hplain _ (mem_of_lookup hvalue)).binary64 x rfl
    exact .inr (.inl ⟨x, q, nofun, hq, hnonneg, hbinary, rfl, rfl⟩)
  | int n =>
    obtain rfl := Option.some.inj hq
    have hfits : (∀ m : ℤ, some (.number (.int n) : Value) = some (.number (.int m)) →
        (m : ℚ) < overflowAt) ↔ (n : ℚ) < overflowAt := by
      refine ⟨fun h => h n rfl, fun h m hm => ?_⟩
      obtain rfl : n = m := by simpa using hm
      exact h
    rw [hfits, Number.toReal_int_unlimited, Number.toReal_int, abs_of_nonneg hnonneg]
    -- A whole number below the bound is rounded, and any other one cannot be read.
    rcases lt_or_ge (n : ℚ) overflowAt with hlt | hge
    · have hkept := isBinary64_binary64 n
      rw [binary64_eq, abs_of_nonneg hnonneg, if_neg (not_le.2 hlt)] at hkept
      have hvalue : (Rounding.unlimited n).toRat? = some (nearest n) := by
        rw [unlimited_of_nonneg hnonneg]
        rfl
      rw [if_neg (not_le.2 hlt)]
      exact .inr (.inl ⟨_, _, hlt, hvalue, nearest_nonneg hnonneg, hkept, rfl, rfl⟩)
    · rw [if_pos hge]
      exact .inr (.inr ⟨n, not_lt.2 hge, hnonneg, rfl, .wholeTooLarge, rfl⟩)

/-- A start clips. -/
theorem shadows_start (hplain : ∀ param ∈ params, param.2.IsPlain) (key : String) :
    Shadows (params.Fits key) (Option.Rel Number.Clips) (usableParam? .unlimited params key)
      (usableParam? .binary64 params key) := by
  rcases usableParam_cases hplain key with ⟨hfits, hunlimited, hbinary⟩ |
    ⟨x, q, hfits, hq, hnonneg, hkept, hunlimited, hbinary⟩ |
    ⟨q, hfits, hnonneg, hunlimited, hfails⟩
  · rw [hunlimited, hbinary]
    exact (Shadows.ok .none).of_iff (iff_of_true trivial hfits)
  · rw [hunlimited, hbinary]
    exact (Shadows.ok (.some ⟨x, x, rfl, rfl, .below hq hnonneg hkept⟩)).of_iff
      (iff_of_true trivial hfits)
  · exact ⟨_, _, hunlimited, .some ⟨_, _, rfl, rfl, .round hnonneg⟩, fun h => absurd h hfits,
      fun _ => hfails⟩

/-- Two real numbers that are the same one of at least zero. -/
def Shared (x y : Number) : Prop := x = y ∧ ∃ u q, x = .real u ∧ u.toRat? = some q ∧ 0 ≤ q

/-- A duration is the same with and without a greatest magnitude. -/
theorem shadows_duration (hplain : ∀ param ∈ params, param.2.IsPlain) :
    Shadows (params.Fits "duration_beats") Shared (duration .unlimited params)
      (duration .binary64 params) := by
  have husable : Shadows (params.Fits "duration_beats") (Option.Rel Shared)
      (usableParam? .unlimited params "duration_beats")
      (usableParam? .binary64 params "duration_beats") := by
    -- The three cases: nothing to use, a number of beats that fits, and one that cannot be read.
    rcases usableParam_cases hplain "duration_beats" with ⟨hfits, hunlimited, hbinary⟩ |
      ⟨x, q, hfits, hq, hnonneg, -, hunlimited, hbinary⟩ |
      ⟨q, hfits, hnonneg, hunlimited, hfails⟩
    · rw [hunlimited, hbinary]
      exact (Shadows.ok .none).of_iff (iff_of_true trivial hfits)
    · rw [hunlimited, hbinary]
      exact (Shadows.ok (.some ⟨rfl, x, q, rfl, hq, hnonneg⟩)).of_iff (iff_of_true trivial hfits)
    · obtain ⟨r, hr, hrnonneg⟩ := (Clips.round hnonneg).exists_toRat?
      exact ⟨_, _, hunlimited, .some ⟨rfl, _, r, rfl, hr, hrnonneg⟩, fun h => absurd h hfits,
        fun _ => hfails⟩
  refine husable.bind_ok fun a b hab => ?_
  have hzero : Shared (.real (.finite 0)) (.real (.finite 0)) := ⟨rfl, _, 0, rfl, rfl, le_rfl⟩
  cases hab with
  | none => exact .ok hzero
  | @some x y hshared =>
    obtain rfl := hshared.1
    refine .ok ?_
    rw [Option.filter_some]
    -- A duration of zero is the one that a cue has anyway.
    split_ifs
    · exact hshared
    · exact hzero

/-! ## Cues -/

/-- A whole number times a duration clips. -/
theorem shadows_mul {d d' : Number} (hd : Shared d d') (n : ℕ) :
    Shadows ((n : ℚ) < overflowAt) Number.Clips (Number.mul .unlimited (.int n) d)
        (Number.mul .binary64 (.int n) d') ∧
      Shadows ((n : ℚ) < overflowAt) Number.Clips (Number.mul .unlimited d (.int n))
        (Number.mul .binary64 d' (.int n)) := by
  obtain ⟨rfl, u, q, rfl, hu, hq⟩ := hd
  have hn : (0 : ℚ) ≤ n := Nat.cast_nonneg n
  have hvalue : (Rounding.unlimited n).toRat? = some (nearest n) := by
    rw [unlimited_of_nonneg hn]
    rfl
  have hread : Shadows ((n : ℚ) < overflowAt) (fun x y => x = y ∧ x.toRat? = some (nearest n))
      ((Number.int n).toReal .unlimited) ((Number.int n).toReal .binary64) := by
    rw [Number.toReal_int_unlimited, Number.toReal_int, Int.cast_natCast, abs_of_nonneg hn]
    refine ⟨_, _, rfl, ⟨rfl, hvalue⟩, fun hlt => ?_, fun hnot => ?_⟩
    · rw [if_neg (not_le.2 hlt)]
    · rw [if_pos (not_lt.1 hnot)]
      exact ⟨.wholeTooLarge, rfl⟩
  have hnearest := nearest_nonneg hn
  refine ⟨hread.bind_ok ?_, hread.bind_ok ?_⟩
  · rintro x _ ⟨rfl, hx⟩
    exact .ok ⟨_, _, rfl, rfl, .mul_same hx hu hnearest hq⟩
  · rintro x _ ⟨rfl, hx⟩
    exact .ok ⟨_, _, rfl, rfl, .mul_same hu hx hq hnearest⟩

/-- Beats of which the second are the first ones clipped, with the same things on them. -/
def BeatsClip {α : Type} : List (Number × α) → List (Number × α) → Prop :=
  List.Forall₂ fun x y => x.1.Clips y.1 ∧ x.2 = y.2

/-- Sums of real numbers clip. -/
theorem shadows_add {a b c d : Number} (hab : a.Clips b) (hcd : c.Clips d) :
    Shadows True Number.Clips (Number.add .unlimited a c) (Number.add .binary64 b d) := by
  obtain ⟨u, v, rfl, rfl, huv⟩ := hab
  obtain ⟨x, y, rfl, rfl, hxy⟩ := hcd
  exact .ok ⟨_, _, rfl, rfl, huv.add hxy⟩

/-- The beat of a repetition clips. -/
theorem shadows_repetition {start start' d d' : Number} (hstart : start.Clips start')
    (hd : Shared d d') (index : ℕ) :
    Shadows ((index : ℚ) < overflowAt) (fun x y => x.1.Clips y.1 ∧ x.2 = y.2)
      (do return (← Number.add .unlimited start (← Number.mul .unlimited (.int index) d), some index))
      (do return (← Number.add .binary64 start' (← Number.mul .binary64 (.int index) d'),
        some index)) :=
  (shadows_mul hd index).1.bind_ok fun _ _ hproduct =>
    (shadows_add hstart hproduct).bind_ok fun _ _ hbeat => .ok ⟨hbeat, rfl⟩

/-- The beats of a cue clip. -/
theorem shadows_beatsOf {start start' d d' : Number} (hstart : start.Clips start')
    (hd : Shared d d') (times : ℕ) :
    Shadows (d.isPositive = true → ((times - 1 : ℕ) : ℚ) < overflowAt) BeatsClip
      (beatsOf .unlimited start d times) (beatsOf .binary64 start' d' times) := by
  have hsame : d = d' := hd.1
  unfold beatsOf
  rw [← hsame]
  by_cases hrepeats : d.isPositive && decide (1 < times)
  · obtain ⟨hpositive, htimes⟩ := Bool.and_eq_true_iff.1 hrepeats
    rw [decide_eq_true_eq] at htimes
    rw [if_pos hrepeats, if_pos hrepeats]
    rw [← hsame] at hd
    refine (Shadows.mapM fun index _ => shadows_repetition hstart hd index).of_iff ?_
    simp only [List.mem_range, hpositive, forall_true_left]
    -- All indices fit if the last one does.
    refine ⟨fun h => h _ (Nat.sub_one_lt (by omega)), fun h index hindex => ?_⟩
    have hle : index ≤ times - 1 := by omega
    exact lt_of_le_of_lt (Nat.cast_le.2 hle) h
  · rw [if_neg hrepeats, if_neg hrepeats]
    refine (Shadows.ok (.cons ⟨hstart, rfl⟩ .nil)).of_iff (iff_of_true trivial fun hpositive => ?_)
    have htimes : times - 1 = 0 := by
      rw [hpositive, Bool.true_and, decide_eq_true_eq] at hrepeats
      omega
    rw [htimes, Nat.cast_zero]
    exact overflowAt_pos

/-- Parts of a walk of which the second is the first one clipped. -/
structure Walk.Clips (walk walk' : Walk) : Prop where
  /-- The cursor clips. -/
  cursor : walk.cursor.Clips walk'.cursor
  /-- The beats clip. -/
  happenings : BeatsClip walk.happenings walk'.happenings

/-- Where a walk goes on behind a cue, of which it is known what happens: a start of its own leaves
the cursor alone. -/
def advance (ρ : Rounding) (start? : Option Number) (cursor duration : Number) (times : ℕ)
    (happenings : List (Number × Happening)) : Except Fault Walk :=
  match start? with
  | some _ => .ok ⟨cursor, happenings⟩
  | none => do
    let advance ← Number.mul ρ duration (.int times)
    return ⟨← Number.add ρ cursor advance, happenings⟩

/-- A walk through a cue in steps. -/
theorem walkCue_eq (ρ : Rounding) (sectionId : String) (cursor : Number) (cue : Cue) (line : ℤ) :
    walkCue ρ maxRepeat sectionId cursor cue line = (do
      let d ← duration ρ cue.params
      let start? ← usableParam? ρ cue.params "start_beats"
      let beats ← beatsOf ρ (start?.getD cursor) d (repeats maxRepeat cue.params)
      advance ρ start? cursor d (repeats maxRepeat cue.params)
        (beats.map fun (beat, index) => (beat, Happening.cue sectionId cue line index))) :=
  rfl

/-- Where a walk goes on behind a cue clips. -/
theorem shadows_advance {start? start?' : Option Number}
    (hstart : Option.Rel Number.Clips start? start?') {cursor cursor' d d' : Number}
    (hcursor : cursor.Clips cursor') (hd : Shared d d') (times : ℕ)
    {happenings happenings' : List (Number × Happening)}
    (hhappenings : BeatsClip happenings happenings') :
    Shadows (start? = none → (times : ℚ) < overflowAt) Walk.Clips
      (advance .unlimited start? cursor d times happenings)
      (advance .binary64 start?' cursor' d' times happenings') := by
  cases hstart with
  | some => exact (Shadows.ok ⟨hcursor, hhappenings⟩).of_iff (iff_of_true trivial nofun)
  | none =>
    refine ((shadows_mul hd times).2.bind_ok fun advance advance' hadvance =>
      (shadows_add hcursor hadvance).bind_ok fun later later' hlater =>
        .ok ⟨hlater, hhappenings⟩).of_iff ?_
    simp

/-- Walking through a cue shadows the unlimited walk if the cue fits. -/
theorem shadows_walkCue {cue : Cue} (hplain : cue.IsPlain) (maxRepeat : ℕ) (sectionId : String)
    (line : ℤ) {cursor cursor' : Number} (hcursor : cursor.Clips cursor') :
    Shadows (cue.Fits maxRepeat) Walk.Clips
      (walkCue .unlimited maxRepeat sectionId cursor cue line)
      (walkCue .binary64 maxRepeat sectionId cursor' cue line) := by
  have hduration := shadows_duration hplain
  have hstart := shadows_start hplain "start_beats"
  rw [walkCue_eq, walkCue_eq]
  refine (hduration.bind fun d d' hd => hstart.bind fun start? start?' hstart =>
    (shadows_beatsOf ?_ hd _).bind_and fun beats beats' hbeats =>
      shadows_advance hstart hcursor hd _ ?_).of_iff ?_
  · cases hstart with
    | none => exact hcursor
    | some h => exact h
  · refine List.forall₂_map_left_iff.2 (List.forall₂_map_right_iff.2 (hbeats.imp ?_))
    rintro ⟨beat, index⟩ ⟨beat', index'⟩ ⟨hbeat, rfl⟩
    exact ⟨hbeat, rfl⟩
  · -- The conditions of the steps are those of a cue that fits.
    obtain ⟨d, -, hd, -⟩ := hduration
    obtain ⟨start?, -, hstart, -⟩ := hstart
    constructor
    · rintro ⟨hfits, hrest⟩
      obtain ⟨hfits', hrest'⟩ := hrest d hd
      obtain ⟨hlast, hadvance⟩ := hrest' start? hstart
      refine ⟨hfits, hfits', fun d' hd' => ?_, fun hnone => ?_⟩
      · obtain rfl := Except.ok.inj (hd.symm.trans hd')
        exact hlast
      · obtain rfl := Except.ok.inj (hstart.symm.trans hnone)
        exact hadvance rfl
    · intro h
      refine ⟨h.duration, fun d' hd' => ⟨h.start, fun start?' hstart' => ⟨h.last d' hd', ?_⟩⟩⟩
      rintro rfl
      exact h.advance hstart'

/-! ## Songs -/

/-- Walking through an item shadows the unlimited walk if the item fits. -/
theorem shadows_walkItem {item : Item} (hplain : item.IsPlain) (maxRepeat : ℕ) (sectionId : String)
    {cursor cursor' : Number} (hcursor : cursor.Clips cursor') :
    Shadows (item.Fits maxRepeat) Walk.Clips (walkItem .unlimited maxRepeat sectionId cursor item)
      (walkItem .binary64 maxRepeat sectionId cursor' item) := by
  cases item with
  | performance | lyric => exact .ok ⟨hcursor, .cons ⟨hcursor, rfl⟩ .nil⟩
  | cue cue line => exact shadows_walkCue hplain maxRepeat sectionId line hcursor
  | raw => exact hplain.elim

/-- A part of a walk that clips goes on with another one that does. -/
theorem Walk.Clips.append {first first' second second' : Walk} (h : first.Clips first')
    (h' : second.Clips second') : (first.append second).Clips (first'.append second') :=
  ⟨h'.cursor, List.rel_append h.happenings h'.happenings⟩

/-- Walking through items shadows the unlimited walk if the items fit. -/
theorem shadows_walkItems {items : List Item} (hplain : ∀ item ∈ items, item.IsPlain)
    (maxRepeat : ℕ) (sectionId : String) {cursor cursor' : Number}
    (hcursor : cursor.Clips cursor') :
    Shadows (∀ item ∈ items, item.Fits maxRepeat) Walk.Clips
      (walkItems .unlimited maxRepeat sectionId cursor items)
      (walkItems .binary64 maxRepeat sectionId cursor' items) := by
  induction items generalizing cursor cursor' with
  | nil => exact (Shadows.ok ⟨hcursor, .nil⟩).of_iff (by simp)
  | cons item items ih =>
    rw [List.forall_mem_cons] at hplain ⊢
    unfold walkItems
    exact (shadows_walkItem hplain.1 maxRepeat sectionId hcursor).bind_and fun first first' hfirst =>
      (ih hplain.2 hfirst.cursor).bind_ok fun rest rest' hrest => .ok (hfirst.append hrest)

/-- Walking through sections shadows the unlimited walk if their items fit. -/
theorem shadows_walkSections {parts : List Section}
    (hplain : ∀ part ∈ parts, ∀ item ∈ part.items, item.IsPlain) (maxRepeat : ℕ)
    {cursor cursor' : Number} (hcursor : cursor.Clips cursor') :
    Shadows (∀ part ∈ parts, ∀ item ∈ part.items, item.Fits maxRepeat) Walk.Clips
      (walkSections .unlimited maxRepeat cursor parts)
      (walkSections .binary64 maxRepeat cursor' parts) := by
  induction parts generalizing cursor cursor' with
  | nil => exact (Shadows.ok ⟨hcursor, .nil⟩).of_iff (by simp)
  | cons part parts ih =>
    rw [List.forall_mem_cons] at hplain ⊢
    unfold walkSections
    refine (shadows_walkItems hplain.1 maxRepeat part.id hcursor).bind_and fun items items' hitems =>
      (ih hplain.2 hitems.cursor).bind_ok fun rest rest' hrest => .ok ?_
    have hfirst : Walk.Clips
        ⟨items.cursor, (cursor, .sectionStart part.id part.label part.line) :: items.happenings⟩
        ⟨items'.cursor, (cursor', .sectionStart part.id part.label part.line) :: items'.happenings⟩ :=
      ⟨hitems.cursor, .cons ⟨hcursor, rfl⟩ hitems.happenings⟩
    exact hfirst.append hrest

/-- Walking through a song of items that can stand in a document shadows the unlimited walk if the
items fit. -/
theorem shadows_walk {song : Song}
    (hplain : ∀ part ∈ song.sections, ∀ item ∈ part.items, item.IsPlain) (maxRepeat : ℕ) :
    Shadows (∀ part ∈ song.sections, ∀ item ∈ part.items, item.Fits maxRepeat) Walk.Clips
      (walk .unlimited maxRepeat song) (walk .binary64 maxRepeat song) :=
  shadows_walkSections hplain maxRepeat ⟨_, _, rfl, rfl, .zero⟩

end Timeline

end CueSheet
