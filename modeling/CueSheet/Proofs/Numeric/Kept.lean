import CueSheet.Numeric.Written
import CueSheet.Proofs.Except
import CueSheet.Proofs.Numeric.Overflow

/-!
# Numbers that are kept

A whole number may be as great as it likes until it meets a real number; then it has to be below
`overflowAt`, or there is a fault. A number is kept (`Number.IsKept`) if it can meet real numbers.
Kept numbers can also be written, because they have few digits.
-/

namespace CueSheet

/-- A finite value is a binary64 number. -/
def Extended.IsBinary64 : Extended → Prop
  | finite q => OnGrid |q| ∧ |q| < magnitudeLimit
  | nan | infinite _ | negZero => True

/-- A quantity can be read as a real number of binary64. -/
def Number.IsKept : Number → Prop
  | int n => |(n : ℚ)| < overflowAt
  | real x => x.IsBinary64
  | bool _ => True

/-! ## Roundings -/

/-- A binary64 number below the greatest magnitude is below `overflowAt`, which lies beyond the
greatest binary64 number. -/
theorem OnGrid.lt_overflowAt {r : ℚ} (hr : 0 ≤ r) (h : OnGrid r) (hlt : r < magnitudeLimit) :
    r < overflowAt := by
  by_contra! hle
  have := (magnitudeLimit_le_nearest_iff hr).2 hle
  rw [nearest_of_onGrid hr h] at this
  exact absurd hlt (not_lt.2 this)

/-- The rounding that never overflows has the magnitude of the nearest binary64 number. -/
theorem toRat?_unlimited (q : ℚ) :
    (Rounding.unlimited q).toRat? = some (if q < 0 then -nearest |q| else nearest |q|) := by
  unfold Rounding.unlimited
  dsimp only
  by_cases hzero : q = 0
  · simp [hzero, nearest_zero]
  · rw [if_neg hzero]
    by_cases hround : nearest |q| = 0
    · by_cases hq : q < 0 <;> simp [hround, hq, Extended.zero, Extended.toRat?]
    · simp [hround]

/-- The rounding that never overflows gives a finite value. -/
@[simp] theorem isFinite_unlimited (q : ℚ) : (Rounding.unlimited q).isFinite = true :=
  (Extended.isFinite_iff_toRat? _).2 ⟨_, toRat?_unlimited q⟩

/-- A rounded number is finite exactly below `overflowAt`. -/
theorem isFinite_binary64_iff (q : ℚ) :
    (Rounding.binary64 q).isFinite = true ↔ |q| < overflowAt := by
  rw [binary64_eq]
  split_ifs with h
  · simpa [Extended.isFinite] using h
  · simpa using h

/-- A rounded number is a binary64 number. -/
theorem isBinary64_binary64 (q : ℚ) : (Rounding.binary64 q).IsBinary64 := by
  rw [binary64_eq]
  split_ifs with h
  · trivial
  · have hnonneg := nearest_nonneg (abs_nonneg q)
    have hvalue := toRat?_unlimited q
    cases hu : Rounding.unlimited q with
    | nan | infinite | negZero => trivial
    | finite r =>
      rw [hu] at hvalue
      obtain rfl := Option.some.inj hvalue
      have habs : |(if q < 0 then -nearest |q| else nearest |q| : ℚ)| = nearest |q| := by
        split_ifs <;> simp [hnonneg]
      rw [Extended.IsBinary64, habs]
      exact ⟨onGrid_nearest (abs_nonneg q),
        not_le.1 fun hle => h ((magnitudeLimit_le_nearest_iff (abs_nonneg q)).1 hle)⟩

/-! ## Results of operations -/

namespace Extended

/-- A zero is a binary64 number. -/
theorem isBinary64_zero (negative : Bool) : (zero negative).IsBinary64 := by
  cases negative
  · exact isBinary64_binary64 0
  · trivial

/-- A rounded result is a binary64 number, whatever the sign of an exact zero. -/
theorem isBinary64_signed (negative : Bool) (q : ℚ) : (signed .binary64 negative q).IsBinary64 := by
  unfold signed
  split_ifs
  · exact isBinary64_zero negative
  · exact isBinary64_binary64 q

/-- The value of opposite sign is a binary64 number if the value is. -/
theorem IsBinary64.neg {x : Extended} (h : x.IsBinary64) : x.neg.IsBinary64 := by
  cases x with
  | nan | infinite => trivial
  | negZero => exact isBinary64_binary64 0
  | finite q =>
    unfold Extended.neg
    dsimp only
    split_ifs
    · trivial
    · rwa [IsBinary64, abs_neg]

/-- A product is a binary64 number. -/
theorem isBinary64_mul (x y : Extended) : (mul .binary64 x y).IsBinary64 := by
  unfold mul
  dsimp only
  split
  · trivial
  · trivial
  · split_ifs <;> trivial
  · split_ifs <;> trivial
  · exact isBinary64_signed _ _

/-- A quotient is a binary64 number. -/
theorem isBinary64_div (x y : Extended) : (div .binary64 x y).IsBinary64 := by
  unfold div
  dsimp only
  split
  · trivial
  · trivial
  · trivial
  · trivial
  · exact isBinary64_zero _
  · exact isBinary64_signed _ _

end Extended

/-! ## Whole numbers among real numbers -/

namespace Number

variable {x : Number}

/-- A whole number is read as a real number by the rounding that never overflows, if it is below
`overflowAt`. -/
theorem toReal_int (n : ℤ) :
    (int n).toReal .binary64 =
      if overflowAt ≤ |(n : ℚ)| then .error .wholeTooLarge else .ok (Rounding.unlimited n) := by
  unfold toReal
  dsimp only
  rw [binary64_eq]
  by_cases h : overflowAt ≤ |(n : ℚ)|
  · simp only [h, if_true]
  · simp only [h, if_false]
    have hfinite := isFinite_unlimited n
    cases hu : Rounding.unlimited n with
    | infinite => simp [hu, Extended.isFinite] at hfinite
    | nan | negZero | finite => rfl

/-- Only whole numbers from `overflowAt` on cannot be read as real numbers. -/
theorem fails_toReal_iff :
    Fails (x.toReal .binary64) ↔ ∃ n : ℤ, x = int n ∧ overflowAt ≤ |(n : ℚ)| := by
  cases x with
  | real => simp [toReal]
  | bool => simp [toReal]
  | int n =>
    rw [toReal_int]
    split_ifs with h <;> simp [h]

/-- A quantity that cannot be read as a real number is too large a whole number. -/
theorem eq_wholeTooLarge_of_toReal {fault : Fault} (h : x.toReal .binary64 = .error fault) :
    fault = .wholeTooLarge := by
  cases x with
  | real | bool => cases h
  | int n =>
    rw [toReal_int] at h
    split_ifs at h
    exact (Except.error.inj h).symm

/-- Zero is kept. -/
theorem isKept_zero : (int 0).IsKept := by
  show |((0 : ℤ) : ℚ)| < overflowAt
  decide +kernel

/-- A kept number can be read as a real number. -/
theorem IsKept.not_fails_toReal (h : x.IsKept) : ¬Fails (x.toReal .binary64) := by
  rw [fails_toReal_iff]
  rintro ⟨n, rfl, hn⟩
  exact absurd h (not_lt.2 hn)

/-- A real number times a quantity is a real number, if the quantity can be read as one. -/
theorem real_mul (ρ : Rounding) (x : Extended) (y : Number) :
    mul ρ (real x) y = y.toReal ρ >>= fun z => .ok (real (.mul ρ x z)) := rfl

/-- A real number divided by a quantity is a real number, if the quantity can be read as one other
than zero. -/
theorem real_div (ρ : Rounding) (x : Extended) (y : Number) :
    div ρ (real x) y = y.toReal ρ >>= fun z =>
      if z.isZero then .error .realDividedByZero else .ok (real (.div ρ x z)) := by
  unfold div
  cases hy : y.toReal ρ with
  | error => simp [whole?, toReal]
  | ok z =>
    simp only [whole?, toReal, ok_bind]
    split_ifs <;> rfl

/-- The numbers of seconds in a minute and of milliseconds in a second are real numbers. -/
theorem toReal_factor {n : ℤ} (hn : n = 60 ∨ n = 1000) :
    (int n).toReal .binary64 = .ok (.finite n) := by
  rcases hn with rfl | rfl <;> decide +kernel

/-- Real numbers can be divided by the number of seconds in a minute and that of milliseconds in a
second. -/
theorem real_div_factor (x : Extended) {n : ℤ} (hn : n = 60 ∨ n = 1000) :
    div .binary64 (real x) (int n) = .ok (real (.div .binary64 x (.finite n))) := by
  have hzero : (Extended.finite n).isZero = false := by
    rcases hn with rfl | rfl <;> rfl
  rw [real_div, toReal_factor hn, ok_bind, hzero]
  rfl

/-! ## Numbers in writing -/

/-- A quantity has no more digits than are written. -/
def IsWritable (x : Number) : Prop := ∀ n : ℤ, x = int n → n.natAbs < 10 ^ digitLimit

/-- A whole number is writable exactly if it is small enough. -/
theorem isWritable_int_iff {n : ℤ} : (int n).IsWritable ↔ n.natAbs < 10 ^ digitLimit := by
  refine ⟨fun h => h n rfl, fun h m hm => ?_⟩
  obtain rfl := Number.int.inj hm
  exact h

/-- A number fails to be written exactly if it has more digits than are written. -/
theorem fails_write_iff : Fails x.write ↔ ¬x.IsWritable := by
  cases x with
  | real | bool => exact iff_of_false (not_fails_ok _) (not_not_intro nofun)
  | int n =>
    have hlength : (natDigits n.natAbs).length ≤ digitLimit ↔ n.natAbs < 10 ^ digitLimit :=
      Nat.length_toDigits_le_iff (by decide) (by decide)
    rw [isWritable_int_iff, ← hlength, not_le]
    unfold write writeInt
    dsimp only
    by_cases hlong : digitLimit < (natDigits n.natAbs).length
    · rw [if_pos hlong]
      exact iff_of_true (fails_error _) hlong
    · rw [if_neg hlong]
      exact iff_of_false (not_fails_ok _) hlong

/-- A number fails to be shown exactly if it has more digits than are written. -/
theorem fails_shown_iff : Fails x.shown ↔ ¬x.IsWritable := by
  rw [shown, fails_bind_of_total fun _ _ => not_fails_pure _, fails_write_iff]

/-- A number that is writable can be written. -/
theorem IsWritable.not_fails_write (h : x.IsWritable) : ¬Fails x.write :=
  fun hfails => fails_write_iff.1 hfails h

/-- A number that is writable can be shown. -/
theorem IsWritable.not_fails_shown (h : x.IsWritable) : ¬Fails x.shown :=
  fun hfails => fails_shown_iff.1 hfails h

/-- A kept number has few digits. -/
theorem IsKept.isWritable (h : x.IsKept) : x.IsWritable := by
  rintro n rfl
  have hlimit : overflowAt ≤ ((10 ^ digitLimit : ℕ) : ℚ) := by decide +kernel
  have hn : ((n.natAbs : ℕ) : ℚ) < ((10 ^ digitLimit : ℕ) : ℚ) := by
    rw [Nat.cast_natAbs, Int.cast_abs]
    exact lt_of_lt_of_le h hlimit
  exact_mod_cast hn

/-- A number that can be read as a real number is writable. -/
theorem isWritable_of_not_fails_toReal (h : ¬Fails (x.toReal .binary64)) : x.IsWritable := by
  rintro n rfl
  rw [fails_toReal_iff] at h
  have hkept : (int n).IsKept := not_le.1 fun hlarge => h ⟨n, rfl, hlarge⟩
  exact hkept.isWritable n rfl

end Number

end CueSheet
