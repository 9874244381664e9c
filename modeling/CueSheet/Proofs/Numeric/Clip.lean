import CueSheet.Proofs.Numeric.Order

/-!
# Binary64 against its unlimited precision

A computation with quantities of at least zero is run twice, with the rounding of binary64 and with
the rounding of the same precision that never overflows. As long as the unlimited value is below the
greatest magnitude the two agree, and from there on the value of binary64 is infinite (`Clips`). Sums
and products keep this up. A quotient does not, since it may bring an unlimited value back below the
greatest magnitude while an infinity stays one; so it is remembered whether all values that were
divided did fit (`Tracks`).
-/

namespace CueSheet

open Extended

/-- The value of binary64, given second, is the unlimited value, or infinite if that is not below the
greatest magnitude. -/
inductive Clips : Extended → Extended → Prop where
  /-- Below the greatest magnitude the values are the same. -/
  | below {x : Extended} {q : ℚ} (hx : x.toRat? = some q) (hq : 0 ≤ q) (hkept : x.IsBinary64) :
    Clips x x
  /-- From the greatest magnitude on the value of binary64 is infinite. -/
  | beyond {q : ℚ} (h : magnitudeLimit ≤ q) : Clips (.finite q) (.infinite false)

/-- A finite value that is below the greatest magnitude. -/
def Extended.IsBelow (x : Extended) : Prop := ∃ q, x.toRat? = some q ∧ q < magnitudeLimit

/-- A value is a point on a timeline: a number of at least zero, or the infinity above all numbers.
-/
def Extended.IsPoint (x : Extended) : Prop := (∃ q, x.toRat? = some q ∧ 0 ≤ q) ∨ x = .infinite false

/-- The greatest magnitude is its own rounding. -/
theorem nearest_magnitudeLimit : nearest magnitudeLimit = magnitudeLimit := by decide +kernel

/-- A finite binary64 value is below the greatest magnitude. -/
theorem Extended.IsBinary64.lt_magnitudeLimit {x : Extended} {q : ℚ} (h : x.IsBinary64)
    (hx : x.toRat? = some q) : q < magnitudeLimit := by
  have habs := Number.IsKept.abs_lt (x := .real x) h hx
  exact (le_abs_self q).trans_lt (habs.trans overflowAt_lt)

/-- What is not below the greatest magnitude is not rounded below it. -/
theorem magnitudeLimit_le_nearest {q : ℚ} (h : magnitudeLimit ≤ q) : magnitudeLimit ≤ nearest q := by
  rw [← nearest_magnitudeLimit]
  exact nearest_mono (overflowAt_pos.trans overflowAt_lt).le h

namespace Clips

variable {u v x y : Extended}

/-- The unlimited value is finite and at least zero. -/
theorem exists_toRat? (h : Clips u x) : ∃ q, u.toRat? = some q ∧ 0 ≤ q := by
  cases h with
  | below hx hq => exact ⟨_, hx, hq⟩
  | beyond h => exact ⟨_, rfl, (overflowAt_pos.trans overflowAt_lt).le.trans h⟩

/-- The value of binary64 is a point. -/
theorem isPoint (h : Clips u x) : x.IsPoint := by
  cases h with
  | below hx hq => exact .inl ⟨_, hx, hq⟩
  | beyond => exact .inr rfl

/-- The value of binary64 is finite exactly if the unlimited value is below the greatest magnitude.
-/
theorem isFinite_iff (h : Clips u x) : x.isFinite = true ↔ u.IsBelow := by
  cases h with
  | below hx hq hkept =>
    exact iff_of_true ((isFinite_iff_toRat? _).2 ⟨_, hx⟩) ⟨_, hx, hkept.lt_magnitudeLimit hx⟩
  | beyond h =>
    refine iff_of_false Bool.false_ne_true ?_
    rintro ⟨q, hq, hlt⟩
    obtain rfl := Option.some.inj hq
    exact absurd hlt (not_lt.2 h)

/-- Below the greatest magnitude the values are the same. -/
theorem eq_of_isBelow (h : Clips u x) (hbelow : u.IsBelow) : x = u := by
  cases h with
  | below => rfl
  | beyond h =>
    obtain ⟨q, hq, hlt⟩ := hbelow
    obtain rfl := Option.some.inj hq
    exact absurd hlt (not_lt.2 h)

/-- Zero is below the greatest magnitude. -/
theorem zero : Clips (.finite 0) (.finite 0) := .below rfl le_rfl (isBinary64_zero false)

/-- An unlimited rounding of a number from the greatest magnitude on. -/
theorem beyond_unlimited {q : ℚ} (h : magnitudeLimit ≤ q) :
    Clips (Rounding.unlimited q) (.infinite false) := by
  rw [unlimited_of_nonneg ((overflowAt_pos.trans overflowAt_lt).le.trans h)]
  exact .beyond (magnitudeLimit_le_nearest h)

/-- Roundings of one number of at least zero. -/
theorem round {q : ℚ} (hq : 0 ≤ q) : Clips (Rounding.unlimited q) (Rounding.binary64 q) := by
  have hkept := isBinary64_binary64 q
  rw [binary64_eq, abs_of_nonneg hq, unlimited_of_nonneg hq] at *
  split_ifs at hkept ⊢ with h
  · rw [decide_eq_false (not_lt.2 hq)]
    exact .beyond ((magnitudeLimit_le_nearest_iff hq).2 h)
  · exact .below rfl (nearest_nonneg hq) hkept

/-- Sums of one pair of values with rationals, of which the sum is at least zero. -/
theorem add_same {p q : ℚ} (hx : x.toRat? = some p) (hy : y.toRat? = some q) (h : 0 ≤ p + q) :
    Clips (add .unlimited x y) (add .binary64 x y) := by
  cases x with
  | nan | infinite => cases hx
  | finite p' =>
    obtain rfl := Option.some.inj hx
    cases y with
    | nan | infinite => cases hy
    | finite | negZero =>
      obtain rfl := Option.some.inj hy
      exact round h
  | negZero =>
    obtain rfl := Option.some.inj hx
    cases y with
    | nan | infinite => cases hy
    | negZero => exact .below rfl le_rfl (isBinary64_zero true)
    | finite =>
      obtain rfl := Option.some.inj hy
      exact round h

/-- A sum with an infinity is infinite, and the unlimited sum is not below the greatest magnitude. -/
theorem beyond_add {p q : ℚ} (hp : magnitudeLimit ≤ p) (hv : v.toRat? = some q) (hq : 0 ≤ q) :
    Clips (add .unlimited (.finite p) v) (.infinite false) := by
  have hsum : magnitudeLimit ≤ p + q := hp.trans (le_add_of_nonneg_right hq)
  have hround : Extended.add .unlimited (.finite p) v = Rounding.unlimited (p + q) := by
    cases v with
    | nan | infinite => cases hv
    | finite | negZero =>
      obtain rfl := Option.some.inj hv
      rfl
  rw [hround]
  exact beyond_unlimited hsum

/-- Addition commutes where one of the values is finite and has a rational. -/
theorem finite_add (ρ : Rounding) (p : ℚ) (v : Extended) :
    Extended.add ρ v (.finite p) = Extended.add ρ (.finite p) v := by
  cases v <;> simp [Extended.add, add_comm]

/-- Adding to an infinity leaves it infinite. -/
theorem infinite_add {q : ℚ} (hy : y.toRat? = some q) :
    Extended.add .binary64 (.infinite false) y = .infinite false ∧
      Extended.add .binary64 y (.infinite false) = .infinite false := by
  cases y with
  | nan | infinite => cases hy
  | finite | negZero => exact ⟨rfl, rfl⟩

/-- Sums. -/
theorem add (h : Clips u x) (h' : Clips v y) :
    Clips (Extended.add .unlimited u v) (Extended.add .binary64 x y) := by
  cases h with
  | below hx hp =>
    cases h' with
    | below hy hq => exact add_same hx hy (add_nonneg hp hq)
    | beyond hq =>
      rw [finite_add, (infinite_add hx).2]
      exact beyond_add hq hx hp
  | beyond hp =>
    obtain ⟨q, hv, hq⟩ := h'.exists_toRat?
    have hinfinite : Extended.add .binary64 (.infinite false) y = .infinite false := by
      cases h' with
      | below hy => exact (infinite_add hy).1
      | beyond => rfl
    rw [hinfinite]
    exact beyond_add hp hv hq

/-- Differences of one pair of values with rationals, the second of which is not above the first. -/
theorem sub_same {p q : ℚ} (hx : x.toRat? = some p) (hy : y.toRat? = some q) (h : q ≤ p) :
    Clips (sub .unlimited x y) (sub .binary64 x y) := by
  have hneg : y.neg.toRat? = some (-q) := by
    cases y with
    | nan | infinite => cases hy
    | negZero =>
      obtain rfl := Option.some.inj hy
      simp [neg]
    | finite =>
      obtain rfl := Option.some.inj hy
      unfold neg
      dsimp only
      split_ifs with hzero
      · simp [toRat?, hzero]
      · rfl
  refine add_same hx hneg ?_
  rw [← sub_eq_add_neg]
  exact sub_nonneg.2 h

/-- Roundings of one number of at least zero whose zero may have either sign. -/
theorem signed (negative : Bool) {q : ℚ} (hq : 0 ≤ q) :
    Clips (Extended.signed .unlimited negative q) (Extended.signed .binary64 negative q) := by
  unfold Extended.signed
  split_ifs
  · have hzero : (Extended.zero negative).toRat? = some 0 := by cases negative <;> rfl
    exact .below hzero le_rfl (isBinary64_zero negative)
  · exact round hq

/-- Products of one pair of values with rationals of at least zero. -/
theorem mul_same {p q : ℚ} (hx : x.toRat? = some p) (hy : y.toRat? = some q) (hp : 0 ≤ p)
    (hq : 0 ≤ q) : Clips (mul .unlimited x y) (mul .binary64 x y) := by
  cases x with
  | nan | infinite => cases hx
  | finite | negZero =>
    obtain rfl := Option.some.inj hx
    cases y with
    | nan | infinite => cases hy
    | finite | negZero =>
      obtain rfl := Option.some.inj hy
      exact signed _ (mul_nonneg hp hq)

/-- Times a number above zero an infinity stays infinite. -/
theorem infinite_mul {q : ℚ} (hy : y.toRat? = some q) (hq : 0 < q) :
    mul .binary64 (.infinite false) y = .infinite false := by
  obtain rfl | ⟨-, hzero⟩ := eq_finite_or_negZero hy
  · simp [mul, isZero, isNegative, hq.ne', hq.le]
  · exact absurd hzero hq.ne'

/-- Products with a number of at least one. -/
theorem mul_finite {c : ℚ} (hc : 1 ≤ c) (h : Clips u x) :
    Clips (mul .unlimited u (.finite c)) (mul .binary64 x (.finite c)) := by
  have hpos : 0 < c := one_pos.trans_le hc
  cases h with
  | below hx hp => exact mul_same hx rfl hp hpos.le
  | @beyond p hp =>
    have hlimit : 0 < magnitudeLimit := overflowAt_pos.trans overflowAt_lt
    have hproduct : magnitudeLimit ≤ p * c :=
      hp.trans (le_mul_of_one_le_right (hlimit.trans_le hp).le hc)
    have hround : mul .unlimited (.finite p) (.finite c) = Rounding.unlimited (p * c) :=
      if_neg (hlimit.trans_le hproduct).ne'
    rw [infinite_mul rfl hpos, hround]
    exact beyond_unlimited hproduct

/-- Quotients of one pair of values with rationals, the second of which is above zero. -/
theorem div_same {p q : ℚ} (hx : x.toRat? = some p) (hy : y.toRat? = some q) (hp : 0 ≤ p)
    (hq : 0 < q) : Clips (div .unlimited x y) (div .binary64 x y) := by
  cases x with
  | nan | infinite => cases hx
  | finite | negZero =>
    obtain rfl := Option.some.inj hx
    cases y with
    | nan | infinite => cases hy
    | finite | negZero =>
      obtain rfl := Option.some.inj hy
      exact signed _ (div_nonneg hp hq.le)

/-- Divided by a number above zero an infinity stays infinite. -/
theorem infinite_div {q : ℚ} (hy : y.toRat? = some q) (hq : 0 < q) :
    div .binary64 (.infinite false) y = .infinite false := by
  obtain rfl | ⟨-, hzero⟩ := eq_finite_or_negZero hy
  · simp [div, isNegative, hq.le]
  · exact absurd hzero hq.ne'

end Clips

/-- The value of binary64 is the unlimited value as far as that is below the greatest magnitude,
under a condition; otherwise it is infinite. -/
structure Tracks (fits : Prop) (u x : Extended) : Prop where
  /-- The unlimited value is finite and at least zero. -/
  nonneg : ∃ q, u.toRat? = some q ∧ 0 ≤ q
  /-- Under the condition the values are the same up to the greatest magnitude. -/
  clips (h : fits) : Clips u x
  /-- Otherwise the value of binary64 is infinite. -/
  infinite (h : ¬fits) : x = .infinite false

namespace Tracks

variable {fits fits' : Prop} {u v x y : Extended}

/-- What clips without a condition does so under one that holds. -/
theorem of_clips (h : Clips u x) (hfits : fits) : Tracks fits u x :=
  ⟨h.exists_toRat?, fun _ => h, fun hnot => absurd hfits hnot⟩

/-- The value of binary64 is finite exactly if the condition holds and the unlimited value is below
the greatest magnitude. -/
theorem isFinite_iff (h : Tracks fits u x) : x.isFinite = true ↔ fits ∧ u.IsBelow := by
  by_cases hfits : fits
  · rw [(h.clips hfits).isFinite_iff, and_iff_right hfits]
  · rw [h.infinite hfits]
    exact iff_of_false Bool.false_ne_true fun hboth => hfits hboth.1

/-- The value of binary64 is a point. -/
theorem isPoint (h : Tracks fits u x) : x.IsPoint := by
  by_cases hfits : fits
  · exact (h.clips hfits).isPoint
  · exact .inr (h.infinite hfits)

/-- Sums. -/
theorem add (h : Tracks fits u x) (h' : Tracks fits' v y) :
    Tracks (fits ∧ fits') (Extended.add .unlimited u v) (Extended.add .binary64 x y) where
  nonneg := by
    obtain ⟨p, hu, hp⟩ := h.nonneg
    obtain ⟨q, hv, hq⟩ := h'.nonneg
    exact (Clips.add_same hu hv (add_nonneg hp hq)).exists_toRat?
  clips := fun ⟨hfits, hfits'⟩ => (h.clips hfits).add (h'.clips hfits')
  infinite := by
    intro hnot
    rcases h.isPoint with ⟨p, hx, -⟩ | rfl
    · have hy : y = .infinite false := by
        rcases h'.isPoint with ⟨q, hy, -⟩ | hy
        · refine h'.infinite fun hfits' => hnot ⟨?_, hfits'⟩
          by_contra hfits
          rw [h.infinite hfits] at hx
          cases hx
        · exact hy
      rw [hy]
      exact (Clips.infinite_add hx).2
    · rcases h'.isPoint with ⟨q, hy, -⟩ | rfl
      · exact (Clips.infinite_add hy).1
      · rfl

/-- Quotients by a number above zero. They bring the value of binary64 back to the unlimited value
only if the dividend is below the greatest magnitude. -/
theorem div {q : ℚ} (h : Clips u x) (hy : y.toRat? = some q) (hq : 0 < q) :
    Tracks u.IsBelow (Extended.div .unlimited u y) (Extended.div .binary64 x y) where
  nonneg := by
    obtain ⟨p, hu, hp⟩ := h.exists_toRat?
    exact (Clips.div_same hu hy hp hq).exists_toRat?
  clips := by
    intro hbelow
    rw [h.eq_of_isBelow hbelow]
    obtain ⟨p, hu, hp⟩ := h.exists_toRat?
    exact Clips.div_same hu hy hp hq
  infinite := by
    intro hnot
    cases h with
    | below hx hp hkept => exact absurd ⟨_, hx, hkept.lt_magnitudeLimit hx⟩ hnot
    | beyond => exact Clips.infinite_div hy hq

end Tracks

/-! ## Amounts as real numbers -/

namespace Number

/-- The rounding that never overflows reads whole numbers of any size. -/
theorem toReal_int_unlimited (n : ℤ) :
    (int n).toReal .unlimited = .ok (Rounding.unlimited n) := by
  have hfinite := isFinite_unlimited n
  unfold toReal
  dsimp only
  cases hu : Rounding.unlimited n with
  | infinite => simp [hu, Extended.isFinite] at hfinite
  | nan | negZero | finite => rfl

/-- An amount is read as the same real number with and without a greatest magnitude, the nearest one
to it. -/
theorem IsAmount.exists_toReal {x : Number} {q : ℚ} (h : x.IsAmount) (hx : x.toRat? = some q) :
    ∃ y, x.toReal .binary64 = .ok y ∧ x.toReal .unlimited = .ok y ∧
      y.toRat? = some (nearest q) := by
  obtain ⟨q', hq', hnonneg⟩ := h.nonneg
  obtain rfl := Option.some.inj (hx.symm.trans hq')
  cases x with
  | bool => cases h.numeric
  | int n =>
    obtain rfl := Option.some.inj hx
    refine ⟨Rounding.unlimited n, ?_, toReal_int_unlimited n, ?_⟩
    · -- An amount is below the limit, so it is not clipped.
      rw [toReal_int, if_neg (not_le.2 h.kept)]
    · rw [unlimited_of_nonneg hnonneg]
      rfl
  | real y =>
    refine ⟨y, rfl, rfl, ?_⟩
    cases y with
    | nan | infinite => cases hx
    | negZero =>
      obtain rfl := Option.some.inj hx
      rw [nearest_zero]
      rfl
    | finite r =>
      obtain rfl := Option.some.inj hx
      -- A real amount is on the grid, so it is its own rounding.
      have hgrid := h.kept.1
      rw [abs_of_nonneg hnonneg] at hgrid
      rw [nearest_of_onGrid hnonneg hgrid]
      rfl

/-- The nearest real number to an amount above zero is above zero. -/
theorem IsAmount.nearest_pos {x : Number} {q : ℚ} (h : x.IsAmount) (hx : x.toRat? = some q)
    (hq : 0 < q) : 0 < nearest q := by
  cases x with
  | bool => cases h.numeric
  | int n =>
    obtain rfl := Option.some.inj hx
    have hone : (1 : ℚ) ≤ n := by exact_mod_cast Int.add_one_le_iff.2 (Int.cast_pos.1 hq)
    calc (0 : ℚ) < nearest 1 := by decide +kernel
      _ ≤ nearest n := nearest_mono zero_le_one hone
  | real y =>
    cases y with
    | nan | infinite => cases hx
    | negZero => exact absurd (Option.some.inj hx) hq.ne
    | finite r =>
      obtain rfl := Option.some.inj hx
      have hgrid := h.kept.1
      rw [abs_of_nonneg hq.le] at hgrid
      rwa [nearest_of_onGrid hq.le hgrid]

end Number

end CueSheet
