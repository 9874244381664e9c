import CueSheet.Duration
import CueSheet.Proofs.Numeric.Kept
import CueSheet.Proofs.Text.Case

/-!
# Where the conversion of a duration fails

The spelling of a unit is recognized without regard to letter case, and then the long s counts as an
s; the conversion looks the spelling up in lower case, and then the long s stays as it is. So a unit
with a long s is recognized and not found again. The only other duration that cannot be converted
counts bars of so many beats that they are beyond the real numbers (`fails_toBeats_iff`).
-/

namespace CueSheet

open Text (lower lowered)

namespace TimeUnit

/-- The spellings of the units without the units. -/
def words : List String := spellings.map (·.1)

/-- What is found as a unit is one of the words. -/
theorem mem_words_iff {spelling : String} : (ofSpelling? spelling).isSome ↔ spelling ∈ words := by
  unfold ofSpelling? words
  rw [List.lookup_isSome_iff]
  simp

/-- A letter that counts as one of ASCII is one, or the long s. -/
theorem ascii_of_foldLetter {c : Char} (h : (foldLetter c).toNat < 128) :
    c.toNat < 128 ∨ c = 'ſ' := by
  by_cases hlong : c = 'ſ'
  · exact .inr hlong
  · refine .inl (not_le.1 fun hle => ?_)
    rw [foldLetter, if_neg hlong, Text.toLower_of_not_ascii hle] at h
    omega

/-- The letters of a unit are letters of ASCII and the long s. -/
theorem ascii_of_isSpelling {text : List Char} (h : isSpelling text = true) :
    ∀ c ∈ text, c.toNat < 128 ∨ c = 'ſ' := by
  intro c hc
  have hwords : (words.all fun word => word.toList.all (·.toNat < 128)) = true := by decide +kernel
  simp only [List.all_eq_true, decide_eq_true_eq] at hwords
  refine ascii_of_foldLetter (hwords _ (mem_words_iff.1 h) _ ?_)
  rw [String.toList_ofList]
  exact List.mem_map_of_mem hc

/-- The lower-case form of a letter of a unit. -/
def lowerLetter (c : Char) : Char := if c = 'ſ' then c else c.toLower

/-- Letters of ASCII and the long s have one lower-case letter each. -/
theorem lower_eq_map {text : List Char} (h : ∀ c ∈ text, c.toNat < 128 ∨ c = 'ſ') :
    lower text = text.map lowerLetter := by
  refine Text.lowerFrom_eq_map (fun c hc => ?_) false
  rcases h c hc with hascii | rfl
  · have hne : c ≠ 'ſ' := by
      rintro rfl
      revert hascii
      decide
    refine ⟨Text.ne_sigma_of_ascii hascii, ?_⟩
    rw [Text.lowerLetter_of_ascii hascii, lowerLetter, if_neg hne]
  · decide

/-- A text of letters of ASCII and the long s has a long s exactly if its lower-case form does. -/
theorem long_s_mem_lower_iff {text : List Char} (h : ∀ c ∈ text, c.toNat < 128 ∨ c = 'ſ') :
    'ſ' ∈ lower text ↔ 'ſ' ∈ text := by
  have hletter : ∀ c ∈ text, lowerLetter c = 'ſ' → c = 'ſ' := by
    intro c hc hlower
    by_contra hne
    rw [lowerLetter, if_neg hne] at hlower
    rcases h c hc with hascii | hlong
    · exact Text.of_ascii (P := fun c => c.toLower ≠ 'ſ') (by decide +kernel) hascii hlower
    · exact hne hlong
  rw [lower_eq_map h, List.mem_map]
  constructor
  · rintro ⟨c, hc, hlower⟩
    exact hletter c hc hlower ▸ hc
  · intro hlong
    exact ⟨'ſ', hlong, rfl⟩

/-- The lower-case form of letters of ASCII and the long s consists of such letters. -/
theorem ascii_lower {text : List Char} (h : ∀ c ∈ text, c.toNat < 128 ∨ c = 'ſ') :
    ∀ c ∈ lower text, c.toNat < 128 ∨ c = 'ſ' := by
  rw [lower_eq_map h]
  intro c hc
  obtain ⟨d, hd, rfl⟩ := List.mem_map.1 hc
  unfold lowerLetter
  split_ifs with hlong
  · exact .inr hlong
  · rcases h d hd with hascii | rfl
    · exact .inl (Text.of_ascii (P := fun c => c.toLower.toNat < 128) (by decide +kernel) hascii)
    · exact absurd rfl hlong

/-- A unit without a long s is one of the words in lower case. -/
theorem mem_words_of_isSpelling {text : List Char} (h : isSpelling text = true)
    (hlong : 'ſ' ∉ text) : String.ofList (lower text) ∈ words := by
  have hfold : text.map lowerLetter = text.map foldLetter := by
    refine List.map_congr_left fun c hc => ?_
    have hne : c ≠ 'ſ' := fun heq => hlong (heq ▸ hc)
    rw [lowerLetter, foldLetter, if_neg hne, if_neg hne]
  rw [lower_eq_map (ascii_of_isSpelling h), hfold]
  exact mem_words_iff.1 h

/-- Nothing with a long s is a word. -/
theorem ofSpelling?_of_long_s {text : List Char} (h : 'ſ' ∈ text) :
    ofSpelling? (String.ofList text) = none := by
  have hwords : ∀ word ∈ words, 'ſ' ∉ word.toList := by decide
  rw [← Option.not_isSome_iff_eq_none, mem_words_iff]
  intro hmem
  have := hwords _ hmem
  rw [String.toList_ofList] at this
  exact this h

/-- An amount of a unit in beats, at a tempo and a number of beats in a bar. -/
def convert (ρ : Rounding) (amount : Value) (bpm : Number) (beatsPerBar : Value) :
    TimeUnit → Except Fault Number
  | milliseconds => do
    Number.div ρ (← Number.mul ρ (← amount.div ρ (.int 1000)) bpm) (.int 60)
  | seconds => do (← amount.mul ρ bpm).div ρ (.int 60)
  | beats => return .real (← amount.toReal ρ)
  | bars => return .real (← (← amount.mul ρ beatsPerBar).toReal ρ)

/-- An amount is converted by its unit, if the spelling of that is found. -/
theorem toBeats_of_found {spelling : String} {unit : TimeUnit}
    (h : ofSpelling? (lowered spelling) = some unit) (ρ : Rounding) (amount bpm beatsPerBar : Value) :
    toBeats ρ amount (some spelling) bpm beatsPerBar =
      requireTempo bpm >>= fun bpm => unit.convert ρ amount bpm beatsPerBar := by
  have hne : spelling ≠ "" := by
    rintro rfl
    rw [show ofSpelling? (lowered "") = none by decide] at h
    cases h
  unfold toBeats
  simp only [h]
  cases unit <;> rfl

/-- An amount is not converted, if the spelling of its unit is not found. -/
theorem toBeats_of_not_found {spelling : String} (hne : spelling ≠ "")
    (h : ofSpelling? (lowered spelling) = none) (ρ : Rounding) (amount bpm beatsPerBar : Value) :
    toBeats ρ amount (some spelling) bpm beatsPerBar =
      requireTempo bpm >>= fun _ => throw (.unknownUnit (lowered spelling)) := by
  unfold toBeats
  simp only [h]

end TimeUnit

namespace Duration

/-- The unit of a duration that is read is one of the words, or it has a long s and is none. -/
theorem unit_of_ofText? {text : List Char} {duration : Duration}
    (h : ofText? text = some duration) :
    ∀ unit ∈ duration.unit, ('ſ' ∉ unit.toList ∧ unit ∈ TimeUnit.words) ∨
      ('ſ' ∈ unit.toList ∧ TimeUnit.ofSpelling? (lowered unit) = none) := by
  intro unit hunit
  unfold ofText? at h
  split at h
  · cases h
  · obtain rfl := Option.some.inj h
    cases hunit
  · next amount written _ hscan =>
    split at h
    · next hspelling =>
      obtain rfl := Option.some.inj h
      obtain rfl := Option.some.inj hunit
      have hascii := TimeUnit.ascii_of_isSpelling hspelling
      rw [String.toList_ofList, TimeUnit.long_s_mem_lower_iff hascii]
      -- A long s passes for an s in a spelling, but it stays when the unit is looked up.
      by_cases hlong : 'ſ' ∈ written
      · refine .inr ⟨hlong, ?_⟩
        rw [lowered, String.toList_ofList]
        apply TimeUnit.ofSpelling?_of_long_s
        rwa [TimeUnit.long_s_mem_lower_iff (TimeUnit.ascii_lower hascii),
          TimeUnit.long_s_mem_lower_iff hascii]
      · exact .inl ⟨hlong, TimeUnit.mem_words_of_isSpelling hspelling hlong⟩
    · cases h

/-- A duration cannot be converted: its unit has a long s, or it counts bars of so many beats that
they are beyond the real numbers. -/
def Stumbles (beatsPerBar : ℕ) (duration : Duration) : Prop :=
  ∃ unit, duration.unit = some unit ∧
    ('ſ' ∈ unit.toList ∨ (unit = "bar" ∨ unit = "bars") ∧ overflowAt ≤ (beatsPerBar : ℚ))

/-- A tempo above zero can be used for conversions. -/
theorem requireTempo_of_isPositive {bpm : Number} (h : bpm.isPositive = true) :
    requireTempo (.number bpm) = .ok bpm := by
  simp [requireTempo, Value.toNumber, h]

/-- A conversion to a unit that is found fails exactly if it counts bars of too many beats. -/
theorem fails_toBeats_of_found {x : Extended} {spelling : String} {unit : TimeUnit} {bpm : Number}
    {beatsPerBar : ℕ} (hfound : TimeUnit.ofSpelling? (lowered spelling) = some unit)
    (hbpm : bpm.isPositive = true) (hkept : bpm.IsKept) :
    Fails (CueSheet.toBeats .binary64 (.number (.real x)) (some spelling) (.number bpm)
      (.int beatsPerBar)) ↔ unit = .bars ∧ overflowAt ≤ (beatsPerBar : ℚ) := by
  obtain ⟨tempo, htempo⟩ := not_fails_iff.1 hkept.not_fails_toReal
  rw [TimeUnit.toBeats_of_found hfound, requireTempo_of_isPositive hbpm, ok_bind]
  cases unit with
  | milliseconds =>
    simp [TimeUnit.convert, Value.div_number, Number.real_div_factor, Number.real_mul, htempo]
  | seconds =>
    simp [TimeUnit.convert, Value.mul_number, Value.div_number, Number.real_div_factor,
      Number.real_mul, htempo, Except.map]
  | beats => simp [TimeUnit.convert, Value.toReal, Number.toReal]
  | bars =>
    rw [TimeUnit.convert, Value.mul_number, Number.real_mul, Number.toReal_int, Int.cast_natCast, Nat.abs_cast]
    split_ifs with hbeats <;> simp [hbeats, Except.map, Value.toReal, Number.toReal]

/-- At a tempo that is kept, the conversion of a duration fails exactly if the duration stumbles. A
duration without a unit is one of the unit that its key says. -/
theorem fails_toBeats_iff {text : List Char} {duration : Duration} {bpm : Number} {beatsPerBar : ℕ}
    (hduration : ofText? text = some duration) (hbpm : bpm.isPositive = true) (hkept : bpm.IsKept)
    {bareUnit : String} (hbare : bareUnit = "s" ∨ bareUnit = "beats") :
    Fails (Duration.toBeats .binary64 { duration with unit := duration.unit.getD bareUnit }
      (.number bpm) (.int beatsPerBar)) ↔ duration.Stumbles beatsPerBar := by
  -- All words are units, and of these only bars are counted in beats of the document.
  have hbars : ∀ word ∈ TimeUnit.words, ∃ unit, TimeUnit.ofSpelling? (lowered word) = some unit ∧
      (unit = .bars ↔ word = "bar" ∨ word = "bars") := by decide
  unfold Duration.toBeats Stumbles
  dsimp only
  cases hunit : duration.unit with
  | none =>
    have hword : bareUnit ∈ TimeUnit.words ∧ ¬(bareUnit = "bar" ∨ bareUnit = "bars") := by
      rcases hbare with rfl | rfl <;> decide
    obtain ⟨unit, hfound, hiff⟩ := hbars bareUnit hword.1
    rw [Option.getD_none, fails_toBeats_of_found hfound hbpm hkept, hiff]
    simp [hword.2]
  | some spelling =>
    simp only [Option.getD_some, Option.some.injEq, exists_eq_left']
    rcases unit_of_ofText? hduration spelling hunit with ⟨hlong, hword⟩ | ⟨hlong, hnone⟩
    · obtain ⟨unit, hfound, hiff⟩ := hbars spelling hword
      rw [fails_toBeats_of_found hfound hbpm hkept, hiff]
      simp [hlong]
    · have hnonempty : spelling ≠ "" := by
        rintro rfl
        simp at hlong
      rw [TimeUnit.toBeats_of_not_found hnonempty hnone, requireTempo_of_isPositive hbpm, ok_bind]
      simp [hlong]

end Duration

end CueSheet
