import CueSheet.Proofs.Duration.Grammar
import CueSheet.Proofs.Numeric.Point

/-!
# Durations in beats

The amount of a duration is a point on a timeline (`Number.IsPoint`): at least zero, or infinite if
it is too great. The conversions between units do not leave the timeline
(`TimeUnit.exists_convert`), so that each duration has a number of beats, and none of it is
undefined. It is the same for all spellings of a unit. With the forms of durations this settles what
reading a text in beats does (`Duration.readBeats_of_ascii`).
-/

namespace CueSheet

open Text (strip)

/-- A literal is read as a point. -/
theorem Literal.isPoint_real (literal : Literal) :
    (Number.real (literal.real .binary64)).IsPoint := by
  rw [real_eq]
  exact ⟨_, rfl, (Clips.round literal.rational_nonneg).isPoint⟩

/-- A point has a number of beats in each unit, and this is a point. -/
theorem TimeUnit.exists_convert {x bpm : Number} (hx : x.IsPoint) (hbpm : bpm.isTempo = true)
    (hkept : bpm.IsKept) {beatsPerBar : ℤ} (hbars : 1 ≤ beatsPerBar)
    (hbarsKept : (Number.int beatsPerBar).IsKept) (unit : TimeUnit) :
    ∃ beats, unit.convert .binary64 x bpm (.int beatsPerBar) = .ok beats ∧ beats.IsPoint := by
  -- Each unit is a chain of products and quotients, and each of them keeps points.
  cases unit with
  | milliseconds =>
    obtain ⟨seconds, hseconds, hx⟩ := hx.exists_div_factor (.inr rfl)
    obtain ⟨product, hproduct, hx⟩ := hx.exists_mul hbpm hkept
    obtain ⟨beats, hbeats, hx⟩ := hx.exists_div_factor (.inl rfl)
    refine ⟨beats, ?_, hx⟩
    rw [convert, Value.div_number, hseconds, ok_bind, hproduct, ok_bind, hbeats]
  | seconds =>
    obtain ⟨product, hproduct, hx⟩ := hx.exists_mul hbpm hkept
    obtain ⟨beats, hbeats, hx⟩ := hx.exists_div_factor (.inl rfl)
    refine ⟨beats, ?_, hx⟩
    rw [convert, Value.mul_number, hproduct, Except.map, ok_bind, Value.div_number, hbeats]
  | beats =>
    obtain ⟨r, rfl, hr⟩ := hx
    exact ⟨.real r, rfl, r, rfl, hr⟩
  | bars =>
    obtain ⟨_, hbeats, r, rfl, hr⟩ := hx.exists_mul (Number.isTempo_int hbars) hbarsKept
    refine ⟨.real r, ?_, r, rfl, hr⟩
    rw [convert, Value.mul_number, hbeats]
    rfl

namespace Duration

variable {text number written : List Char} {duration : Duration} {unit : TimeUnit}

/-- What is written for a unit is converted by that unit. -/
theorem toBeats_of_isWritten {spelling? : Option String}
    (h : TimeUnit.IsWritten written spelling? unit) (ρ : Rounding)
    (amount bpm beatsPerBar : Value) :
    CueSheet.toBeats ρ amount spelling? bpm beatsPerBar =
      requireTempo bpm >>= fun bpm => unit.convert ρ amount bpm beatsPerBar := by
  cases h with
  | absent =>
    have hfound : TimeUnit.ofSpelling? (Text.lowered "s") = some .seconds := by decide
    exact TimeUnit.toBeats_of_found hfound ρ amount bpm beatsPerBar
  | @spelled _ spelling _ hspelling =>
    have hfound : ∀ word ∈ unit.spelledAs,
        TimeUnit.ofSpelling? (Text.lowered word) = some unit := by
      cases unit <;> decide
    exact TimeUnit.toBeats_of_found (hfound spelling hspelling) ρ amount bpm beatsPerBar

/-- A text is read in beats by the number and the unit that it is written with. -/
theorem readBeats_of_isWritten (h : IsWritten (strip text) number written duration unit)
    (ρ : Rounding) (bpm beatsPerBar : Value) :
    readBeats ρ text bpm beatsPerBar = requireTempo bpm >>= fun bpm =>
      unit.convert ρ (Number.real (duration.amount.real ρ)) bpm beatsPerBar := by
  rw [readBeats, ofText?_of_isWritten h]
  exact toBeats_of_isWritten h.unit ρ _ bpm beatsPerBar

/-- A duration is a number of beats, at a tempo and a number of beats in a bar. -/
structure IsInBeats (number : List Char) (duration : Duration) (unit : TimeUnit) (bpm : Number)
    (beatsPerBar : ℤ) (beats : Number) : Prop where
  /-- The number of beats is a real number of at least zero, or infinite. -/
  isPoint : beats.IsPoint
  /-- It is what the amount is converted to by the spelling of the unit. -/
  toBeats_eq : CueSheet.toBeats .binary64 (Number.real (duration.amount.real .binary64))
    duration.unit bpm (.int beatsPerBar) = .ok beats
  /-- It is what the number is read as with any spelling of the unit behind it. -/
  readBeats_eq : ∀ written spelling?, TimeUnit.IsWritten written spelling? unit →
    readBeats .binary64 (number ++ written) bpm (.int beatsPerBar) = .ok beats

/-- A text of ASCII is read as a duration exactly if it is written as one, blanks around it aside,
and it is written as one in one way only. Then it is read as a number of beats, at every tempo above
zero and every whole number of beats in a bar that can be kept as real numbers. -/
theorem readBeats_of_ascii (hascii : ∀ c ∈ text, c.toNat < 128) :
    (∀ duration, ofText? text = some duration ↔
      ∃ number written unit, IsWritten (strip text) number written duration unit) ∧
    ∀ number written duration unit, IsWritten (strip text) number written duration unit →
      (∀ number' written' duration' unit',
        IsWritten (strip text) number' written' duration' unit' →
          number = number' ∧ written = written' ∧ duration = duration' ∧ unit = unit') ∧
      ∀ (bpm : Number) (beatsPerBar : ℤ), bpm.isTempo = true → bpm.IsKept → 1 ≤ beatsPerBar →
        (Number.int beatsPerBar).IsKept →
        ∃ beats, readBeats .binary64 text bpm (.int beatsPerBar) = .ok beats ∧
          IsInBeats number duration unit bpm beatsPerBar beats := by
  refine ⟨fun duration => ofText?_eq_some_iff hascii, fun number written duration unit h =>
    ⟨fun _ _ _ _ => h.unique, fun bpm beatsPerBar hbpm hkept hbars hbarsKept => ?_⟩⟩
  obtain ⟨beats, hbeats, hpoint⟩ :=
    unit.exists_convert duration.amount.isPoint_real hbpm hkept hbars hbarsKept
  have htempo : requireTempo bpm = .ok bpm :=
    requireTempo_of_isPositive (Number.isPositive_of_isTempo hbpm)
  refine ⟨beats, ?_, hpoint, ?_, fun written' spelling? h' => ?_⟩
  · rw [readBeats_of_isWritten h, htempo, ok_bind, hbeats]
  · rw [toBeats_of_isWritten h.unit, htempo, ok_bind, hbeats]
  · -- With the other spelling behind it the number is a text that is written as a duration again.
    have hwritten :
        IsWritten (number ++ written') number written' ⟨duration.amount, spelling?⟩ unit :=
      ⟨rfl, h.number, h'⟩
    rw [readBeats_of_isWritten (hwritten.strip_eq.symm ▸ hwritten), htempo, ok_bind, hbeats]

/-- A bar and a half of four beats is six beats, at the standard tempo. -/
theorem readBeats_of_ascii_bars :
    (∀ c ∈ " 1.5Bars\t".toList, c.toNat < 128) ∧
      IsWritten (strip " 1.5Bars\t".toList) "1.5".toList "Bars".toList ⟨⟨[1], [5]⟩, some "bars"⟩
        .bars ∧
      (Number.int 120).isTempo = true ∧ (Number.int 120).IsKept ∧ (1 : ℤ) ≤ 4 ∧
      (Number.int 4).IsKept ∧
      readBeats .binary64 " 1.5Bars\t".toList (Number.int 120) (.int 4) =
        .ok (.real (.finite 6)) ∧
      IsInBeats "1.5".toList ⟨⟨[1], [5]⟩, some "bars"⟩ .bars (.int 120) 4
        (.real (.finite 6)) := by
  have hascii : ∀ c ∈ " 1.5Bars\t".toList, c.toNat < 128 := by
    have hall : (" 1.5Bars\t".toList.all fun c => c.toNat < 128) = true := by decide
    simpa only [List.all_eq_true, decide_eq_true_eq] using hall
  have hwritten : IsWritten (strip " 1.5Bars\t".toList) "1.5".toList "Bars".toList
      ⟨⟨[1], [5]⟩, some "bars"⟩ .bars :=
    ⟨by decide, Literal.ofText?_eq_some_iff.1 (by decide), .spelled (by decide) (by decide)⟩
  have htempo : (Number.int 120).isTempo = true := by decide
  have hkept : (Number.int 120).IsKept := by
    show |((120 : ℤ) : ℚ)| < overflowAt
    decide +kernel
  have hbars : (Number.int 4).IsKept := by
    show |((4 : ℤ) : ℚ)| < overflowAt
    decide +kernel
  have hsix : readBeats .binary64 " 1.5Bars\t".toList (Number.int 120) (.int 4) =
      .ok (.real (.finite 6)) := by decide +kernel
  obtain ⟨beats, hbeats, hresult⟩ := ((readBeats_of_ascii hascii).2 _ _ _ _ hwritten).2 (.int 120) 4
    htempo hkept (by decide) hbars
  obtain rfl := Except.ok.inj (hbeats.symm.trans hsix)
  exact ⟨hascii, hwritten, htempo, hkept, by decide, hbars, hsix, hresult⟩

end Duration

end CueSheet
