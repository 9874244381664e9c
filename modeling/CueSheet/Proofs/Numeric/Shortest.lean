import Mathlib.Algebra.Order.Floor.Semifield
import Mathlib.Data.Nat.Cast.Order.Field
import CueSheet.Numeric.Shortest
import CueSheet.Proofs.Numeric.Nearest

/-!
# Writing with the fewest digits loses nothing

The shortest decimal of a binary64 number has that number as its nearest one (`nearest_shortest`).
Two binary64 numbers are at least one part in `2 ^ 53` apart (`OnGrid.le_abs_sub`), so every decimal
within one part in `2 ^ 54` reads back. With seventeen digits one of the two neighbours of the
number comes within one part in `2 * 10 ^ 16`, and `2 ^ 54` is less than that. So the search for
the fewest digits always ends with a decimal that reads back.
-/

namespace CueSheet

/-! ## How far binary64 numbers are apart -/

/-- A whole multiple of a place is one of every lower place. -/
theorem exists_mul_zpow_eq (k : ℕ) {e f : ℤ} (h : e ≤ f) :
    ∃ n : ℕ, (k : ℚ) * 2 ^ f = n * 2 ^ e := by
  obtain ⟨n, hn⟩ := Int.eq_ofNat_of_zero_le (sub_nonneg.2 h)
  refine ⟨k * 2 ^ n, ?_⟩
  rw [show f = n + e by omega, zpow_add₀ two_ne_zero, zpow_natCast]
  push_cast
  ring

/-- Different natural numbers are at least one apart. -/
theorem one_le_abs_natCast_sub {a b : ℕ} (h : a ≠ b) : (1 : ℚ) ≤ |(a : ℚ) - b| := by
  have hne : (a : ℤ) - b ≠ 0 := by omega
  exact_mod_cast Int.one_le_abs hne

/-- A binary64 number differs from any other by at least one part in `2 ^ 53`. -/
theorem OnGrid.le_abs_sub {q r : ℚ} (hq : OnGrid q) (hr : OnGrid r) (hne : r ≠ q) :
    q / 2 ^ 53 ≤ |r - q| := by
  obtain ⟨m, e, hm, he, rfl⟩ := hq
  obtain ⟨k, f, hk, hf, rfl⟩ := hr
  have hmq : (m : ℚ) ≤ 2 ^ 53 := by exact_mod_cast hm.le
  have hkq : (k : ℚ) + 1 ≤ 2 ^ 53 := by exact_mod_cast hk
  -- Both are whole multiples of the smaller one of the two places.
  rcases le_total e f with hle | hle
  · obtain ⟨n, hn⟩ := exists_mul_zpow_eq k hle
    have hplace : (0 : ℚ) < 2 ^ e := by positivity
    have hone := one_le_abs_natCast_sub (a := n) (b := m) (by rintro rfl; exact hne hn)
    have hsmall : (m : ℚ) / 2 ^ 53 ≤ 1 := (div_le_one (by positivity)).2 hmq
    rw [hn, ← sub_mul, abs_mul, abs_of_pos hplace, mul_div_right_comm]
    gcongr
    exact hsmall.trans hone
  · obtain ⟨n, hn⟩ := exists_mul_zpow_eq m hle
    have hplace : (0 : ℚ) < 2 ^ f := by positivity
    have hone := one_le_abs_natCast_sub (a := k) (b := n) (by rintro rfl; exact hne hn.symm)
    rw [hn, ← sub_mul, abs_mul, abs_of_pos hplace, mul_div_right_comm]
    gcongr
    -- The multiplier `n` may be large, but then that of the other number is far below it.
    rcases le_total (n : ℚ) (2 ^ 53) with hsmall | hlarge
    · exact ((div_le_one (by positivity)).2 hsmall).trans hone
    · rw [div_le_iff₀ (by positivity), abs_sub_comm, abs_of_nonneg (by linarith)]
      linarith

/-- A number within one part in `2 ^ 54` of a binary64 number is rounded to it. -/
theorem nearest_eq_of_near {q x : ℚ} (hq : OnGrid q) (hx : 0 ≤ x)
    (h : |x - q| < q / 2 ^ 54) : nearest x = q := by
  by_contra hne
  have hapart := hq.le_abs_sub (onGrid_nearest hx) hne
  have hnear := abs_nearest_sub_le hx hq
  have htriangle : |nearest x - q| ≤ |nearest x - x| + |x - q| := abs_sub_le _ _ _
  rw [abs_sub_comm q x] at hnear
  have hhalf : q / 2 ^ 53 = q / 2 ^ 54 + q / 2 ^ 54 := by ring
  linarith

namespace Decimal

/-! ## The value of a decimal -/

/-- A power of ten with a whole exponent is a quotient of two powers of ten. -/
theorem zpow_ten_eq_div (e : ℤ) : (10 : ℚ) ^ e = tenTo e.toNat / tenTo (-e).toNat := by
  rw [zpow_eq_div (by norm_num), tenTo_eq, tenTo_eq]
  push_cast
  rfl

/-- The rational of a decimal is its coefficient times its power of ten. -/
theorem toRat_eq (d : Decimal) : d.toRat = d.coefficient * 10 ^ d.exponent := by
  unfold toRat
  split_ifs with h
  · have hzero : (-d.exponent).toNat = 0 := by omega
    rw [zpow_ten_eq_div, hzero, tenTo_zero, Nat.cast_one, div_one, Nat.cast_mul]
  · have hzero : d.exponent.toNat = 0 := by omega
    rw [zpow_ten_eq_div, hzero, tenTo_zero, Nat.cast_one, Rat.mkRat_eq_div, mul_one_div,
      Int.cast_natCast]

/-- A decimal is at least zero. -/
theorem toRat_nonneg (d : Decimal) : 0 ≤ d.toRat := by
  rw [toRat_eq]
  positivity

/-- A decimal reads back as the number that is its rounding. -/
theorem readsBack_iff {q : ℚ} {d : Decimal} : readsBack q d = true ↔ nearest d.toRat = q := by
  rw [readsBack, nearest, decide_eq_true_iff]

/-- Zeros at the end of a coefficient do not matter. -/
theorem toRat_trim (fuel : ℕ) (d : Decimal) : (trim fuel d).toRat = d.toRat := by
  induction fuel generalizing d with
  | zero => rfl
  | succ fuel ih =>
    rw [trim]
    split_ifs with h
    · have hten : d.coefficient = 10 * (d.coefficient / 10) := by omega
      rw [ih, toRat_eq, toRat_eq, zpow_add_one₀ (by norm_num)]
      conv_rhs => rw [hten]
      push_cast
      ring
    · rfl

/-! ## The neighbours of a number -/

/-- A quotient is compared with a power of ten by comparing natural numbers. -/
theorem powLe_iff {p : ℤ} {n d : ℕ} (hd : 0 < d) :
    powLe p n d = true ↔ (10 : ℚ) ^ p ≤ n / d := by
  have hdq : (0 : ℚ) < d := by exact_mod_cast hd
  have hpow : (0 : ℚ) < tenTo (-p).toNat := by exact_mod_cast tenTo_pos _
  rw [powLe, decide_eq_true_iff, zpow_ten_eq_div, div_le_div_iff₀ hpow hdq,
    mul_comm (tenTo p.toNat : ℚ)]
  exact_mod_cast Iff.rfl

/-- One less than the guess at the logarithm in base ten of `2 ^ (j - 1074)`. -/
def guessAt (j : ℕ) : ℤ := ((j : ℤ) - 1074) * 30103 / 100000 - 1

/-- The logarithm in base ten is at most one more than the guess that is made of the logarithm in
base two, for all magnitudes that binary64 has. -/
theorem zpow_guess_le {k : ℤ} (hlow : -1074 ≤ k) (hhigh : k < 1024) :
    (10 : ℚ) ^ (k * 30103 / 100000 - 1) ≤ 2 ^ k := by
  have hall : ∀ j < 2098, powLe (guessAt j) (twoTo (j - 1074)) (twoTo (1074 - j)) = true := by
    decide +kernel
  have hpow := (powLe_iff (twoTo_pos _)).1 (hall (k + 1074).toNat (by omega))
  rw [guessAt, show (((k + 1074).toNat : ℤ) - 1074) = k by omega,
    show (k + 1074).toNat - 1074 = k.toNat by omega,
    show 1074 - (k + 1074).toNat = (-k).toNat by omega, ← zpow_two_eq_div] at hpow
  exact hpow

/-- A positive binary64 number has at least the least magnitude. -/
theorem le_of_onGrid {q : ℚ} (hq : OnGrid q) (hpos : 0 < q) : (2 : ℚ) ^ (-1074 : ℤ) ≤ q := by
  obtain ⟨m, e, -, he, rfl⟩ := hq
  have hm : (1 : ℚ) ≤ m := by
    have : m ≠ 0 := by
      rintro rfl
      simp at hpos
    exact_mod_cast Nat.one_le_iff_ne_zero.2 this
  calc (2 : ℚ) ^ (-1074 : ℤ) ≤ 2 ^ e := zpow_le_zpow_right₀ one_le_two he
    _ ≤ m * 2 ^ e := le_mul_of_one_le_left (by positivity) hm

/-- The digits of a binary64 number do not begin before the place where they are looked for. -/
theorem zpow_pointOf_le {q : ℚ} (hq : OnGrid q) (hpos : 0 < q) (hlt : q < 2 ^ 1024) :
    (10 : ℚ) ^ (pointOf q.num.natAbs q.den - 1) ≤ q := by
  have hmagnitude : (q.num.natAbs : ℚ) / q.den = q := by rw [natAbs_div_den, abs_of_pos hpos]
  obtain ⟨hle, hgt⟩ := floorLog2_bounds (n := q.num.natAbs) (d := q.den)
    (by simpa using hpos.ne') q.den_ne_zero
  rw [hmagnitude] at hle hgt
  unfold pointOf
  dsimp only
  split_ifs with habove hat
  · have hpow := (powLe_iff q.den_pos).1 habove
    rwa [hmagnitude, ← add_sub_cancel_right (_ + 1) (1 : ℤ), add_assoc] at hpow
  · have hpow := (powLe_iff q.den_pos).1 hat
    rwa [hmagnitude, ← add_sub_cancel_right (floorLog2 _ _ * _ / _) (1 : ℤ)] at hpow
  · have hlow : -1074 ≤ floorLog2 q.num.natAbs q.den := by
      have := (zpow_lt_zpow_iff_right₀ one_lt_two).1 ((le_of_onGrid hq hpos).trans_lt hgt)
      omega
    have hhigh : floorLog2 q.num.natAbs q.den < (1024 : ℕ) := by
      rw [← zpow_natCast] at hlt
      exact (zpow_lt_zpow_iff_right₀ one_lt_two).1 (hle.trans_lt hlt)
    exact (zpow_guess_le hlow hhigh).trans hle

/-- One of the two neighbours of a number on a grid is at most half a place away. -/
theorem near_of_neighbours {n d : ℕ} (hd : 0 < d) (exponent : ℤ) :
    |(neighbours n d exponent).1.toRat - n / d| ≤ 10 ^ exponent / 2 ∨
      |(neighbours n d exponent).2.1.toRat - n / d| ≤ 10 ^ exponent / 2 := by
  have hplace : (0 : ℚ) < 10 ^ exponent := by positivity
  have hden : 0 < d * tenTo exponent.toNat := Nat.mul_pos hd (tenTo_pos _)
  have hquotient : ((n * tenTo (-exponent).toNat : ℕ) : ℚ) / (d * tenTo exponent.toNat : ℕ) *
      10 ^ exponent = n / d := by
    have hpos : (0 : ℚ) < tenTo exponent.toNat := by exact_mod_cast tenTo_pos _
    have hneg : (0 : ℚ) < tenTo (-exponent).toNat := by exact_mod_cast tenTo_pos _
    have hdq : (0 : ℚ) < d := by exact_mod_cast hd
    rw [zpow_ten_eq_div]
    push_cast
    field_simp
  -- In units of the last place the quotient is `x`, between two whole numbers.
  simp only [neighbours, toRat_eq]
  rw [← hquotient]
  generalize d * tenTo exponent.toNat = denominator at hden ⊢
  generalize n * tenTo (-exponent).toNat = numerator
  generalize hx : (numerator : ℚ) / denominator = x
  have hbelow : ((numerator / denominator : ℕ) : ℚ) ≤ x := hx ▸ Nat.cast_div_le
  have habove : x < (numerator / denominator : ℕ) + 1 := by
    rw [← hx, ← Nat.floor_div_eq_div (K := ℚ)]
    exact Nat.lt_floor_add_one _
  generalize numerator / denominator = below at hbelow habove
  have hhalf {y : ℚ} (hy : |y - x| ≤ 1 / 2) :
      |y * 10 ^ exponent - x * 10 ^ exponent| ≤ 10 ^ exponent / 2 := by
    rw [← sub_mul, abs_mul, abs_of_pos hplace, div_eq_mul_one_div, mul_comm]
    exact mul_le_mul_of_nonneg_left hy hplace.le
  rcases le_total (x - below) (1 / 2) with h | h
  · left
    apply hhalf
    rwa [abs_sub_comm, abs_of_nonneg (by linarith)]
  · right
    push_cast
    apply hhalf
    rw [abs_of_nonneg (by linarith)]
    linarith

/-! ## The search -/

/-- A decimal that is found on a grid reads back. -/
theorem readsBack_of_onGrid? {n d : ℕ} {exponent : ℤ} {found : Decimal}
    (h : onGrid? n d exponent = some found) : readsBack (mkRat n d) found = true := by
  unfold onGrid? at h
  dsimp only at h
  split at h
  · next hbelow habove =>
    split at h
    · exact Option.some.inj h ▸ hbelow
    · exact Option.some.inj h ▸ habove
    · obtain rfl := Option.some.inj h
      split
      · exact hbelow
      · exact habove
  · next hbelow _ => exact Option.some.inj h ▸ hbelow
  · next _ habove => exact Option.some.inj h ▸ habove
  · cases h

/-- A decimal is found on a grid if one of the two neighbours reads back. -/
theorem isSome_onGrid? {n d : ℕ} {exponent : ℤ}
    (h : readsBack (mkRat n d) (neighbours n d exponent).1 = true ∨
      readsBack (mkRat n d) (neighbours n d exponent).2.1 = true) :
    (onGrid? n d exponent).isSome = true := by
  unfold onGrid?
  dsimp only
  split
  · split <;> rfl
  · rfl
  · rfl
  · next hbelow habove => simp_all

variable {q : ℚ}

/-- With seventeen digits a decimal is found. -/
theorem isSome_onGrid?_seventeen (hq : OnGrid q) (hpos : 0 < q) (hlt : q < 2 ^ 1024) :
    (onGrid? q.num.natAbs q.den (pointOf q.num.natAbs q.den - 17)).isSome = true := by
  have hmagnitude : (q.num.natAbs : ℚ) / q.den = q := by rw [natAbs_div_den, abs_of_pos hpos]
  have hself : mkRat (q.num.natAbs : ℤ) q.den = q := by
    rw [Rat.mkRat_eq_div, Int.cast_natCast, hmagnitude]
  have hpoint := zpow_pointOf_le hq hpos hlt
  -- Half a place is one part in `2 * 10 ^ 16` at most.
  have hplace : (10 : ℚ) ^ (pointOf q.num.natAbs q.den - 17) / 2 < q / 2 ^ 54 := by
    rw [show ∀ p : ℤ, p - 17 = p - 1 - 16 from fun p => by ring, zpow_sub₀ (by norm_num)]
    calc (10 : ℚ) ^ (pointOf q.num.natAbs q.den - 1) / 10 ^ (16 : ℤ) / 2
        ≤ q / 10 ^ (16 : ℤ) / 2 := by gcongr
      _ < q / 2 ^ 54 := by
        rw [div_div]
        exact div_lt_div_of_pos_left hpos (by positivity) (by norm_num)
  have hreads {x : Decimal} (hx : |x.toRat - q| ≤ 10 ^ (pointOf q.num.natAbs q.den - 17) / 2) :
      readsBack q x = true :=
    readsBack_iff.2 (nearest_eq_of_near hq x.toRat_nonneg (hx.trans_lt hplace))
  apply isSome_onGrid?
  rw [hself]
  have hnear := near_of_neighbours (n := q.num.natAbs) q.den_pos
    (pointOf q.num.natAbs q.den - 17)
  rw [hmagnitude] at hnear
  exact hnear.imp hreads hreads

/-- The shortest decimal of a positive binary64 number reads back as that number. -/
theorem nearest_shortest (hq : OnGrid q) (hpos : 0 < q) (hlt : q < 2 ^ 1024) :
    nearest (shortest q.num.natAbs q.den).toRat = q := by
  have hself : mkRat (q.num.natAbs : ℤ) q.den = q := by
    rw [Rat.mkRat_eq_div, Int.cast_natCast, natAbs_div_den, abs_of_pos hpos]
  have hsome := isSome_onGrid?_seventeen hq hpos hlt
  unfold shortest
  dsimp only
  rw [toRat_trim]
  cases hfound : (List.range 17).findSome? fun k : ℕ =>
      onGrid? q.num.natAbs q.den (pointOf q.num.natAbs q.den - (k + 1 : ℕ)) with
  | none =>
    have hnone := List.findSome?_eq_none_iff.1 hfound 16 (List.mem_range.2 (by norm_num))
    rw [show pointOf q.num.natAbs q.den - ((16 + 1 : ℕ) : ℤ) = _ - 17 from rfl] at hnone
    rw [hnone] at hsome
    cases hsome
  | some found =>
    obtain ⟨k, -, hk⟩ := List.exists_of_findSome?_eq_some hfound
    have hreads := readsBack_of_onGrid? hk
    rw [hself] at hreads
    exact readsBack_iff.1 hreads

end Decimal

end CueSheet
