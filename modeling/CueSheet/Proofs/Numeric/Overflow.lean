import CueSheet.Proofs.Numeric.Nearest

/-!
# Beyond the greatest magnitude

The greatest binary64 number is `2 ^ 1024 - 2 ^ 971`. A number is rounded to an infinity from half
way between it and `2 ^ 1024` on, that is from `overflowAt` on; below, the greatest magnitude does
not matter, and binary64 agrees with the rounding of the same precision that never overflows
(`Rounding.unlimited`).
-/

namespace CueSheet

/-- The least number that is rounded to an infinity. -/
def overflowAt : ℚ := 2 ^ 1024 - 2 ^ 970

/-- The greatest binary64 number. -/
def greatestNumber : ℚ := 2 ^ 1024 - 2 ^ 971

/-- The least magnitude that binary64 does not have. -/
def magnitudeLimit : ℚ := 2 ^ 1024

/-- The rounding of binary64 without a greatest magnitude. -/
def Rounding.unlimited : Rounding := fun q =>
  if q = 0 then .finite 0
  else
    let r := nearest |q|
    if r = 0 then .zero (q < 0) else .finite (if q < 0 then -r else r)

/-- The least magnitude that binary64 does not have, in the notation of the rounding. -/
theorem twoTo_1024 : ((twoTo 1024 : ℕ) : ℚ) = magnitudeLimit := by
  rw [twoTo_eq, Nat.cast_pow, Nat.cast_ofNat, magnitudeLimit]

/-- The least number that is rounded to an infinity is above zero. -/
theorem overflowAt_pos : 0 < overflowAt := by decide +kernel

/-- The least number that is rounded to an infinity is below the greatest magnitude. -/
theorem overflowAt_lt : overflowAt < magnitudeLimit := by decide +kernel

/-- The greatest binary64 number is one. -/
theorem onGrid_greatestNumber : OnGrid greatestNumber :=
  ⟨2 ^ 53 - 1, 971, by decide +kernel, by decide +kernel, by decide +kernel⟩

/-- The numbers whose nearest binary64 number of any magnitude is not below the greatest magnitude
are those from `overflowAt` on. -/
theorem magnitudeLimit_le_nearest_iff {q : ℚ} (hq : 0 ≤ q) :
    magnitudeLimit ≤ nearest q ↔ overflowAt ≤ q := by
  refine ⟨fun h => ?_, fun h => ?_⟩
  · by_contra! hlt
    -- The greatest binary64 number is nearer to the number than the limit is.
    have hnear := abs_nearest_sub_le hq onGrid_greatestNumber
    have hgreatest : greatestNumber < magnitudeLimit := by decide +kernel
    have hhalf : magnitudeLimit - overflowAt = overflowAt - greatestNumber := by decide +kernel
    have habove : q < nearest q := (hlt.trans overflowAt_lt).trans_le h
    rw [abs_of_pos (sub_pos.2 habove), le_abs] at hnear
    rcases hnear with hnear | hnear <;> linarith
  · calc magnitudeLimit ≤ nearest overflowAt := by decide +kernel
      _ ≤ nearest q := nearest_mono overflowAt_pos.le h

/-- Below `overflowAt` the greatest magnitude does not matter. -/
theorem binary64_eq (q : ℚ) :
    Rounding.binary64 q =
      if overflowAt ≤ |q| then .infinite (q < 0) else Rounding.unlimited q := by
  have hnearest : nearestMagnitude q.num.natAbs q.den = nearest |q| := by
    rw [nearest, Rat.num_abs_eq_abs_num, Rat.den_abs_eq_den, Int.natAbs_abs]
  have hlimit := magnitudeLimit_le_nearest_iff (abs_nonneg q)
  unfold Rounding.binary64 Rounding.unlimited
  simp only [hnearest, twoTo_1024, hlimit]
  by_cases hzero : q = 0
  · rw [if_pos hzero, if_pos hzero, if_neg]
    rw [hzero, abs_zero]
    exact not_le.2 overflowAt_pos
  · rw [if_neg hzero, if_neg hzero]
    by_cases hround : nearest |q| = 0
    · rw [if_pos hround, if_pos hround, if_neg]
      rw [← hlimit, hround]
      exact not_le.2 (overflowAt_pos.trans overflowAt_lt)
    · rw [if_neg hround, if_neg hround]
      by_cases hq : q < 0 <;> simp [hq]

end CueSheet
