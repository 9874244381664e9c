import Mathlib.Data.Rat.Floor
import Mathlib.Algebra.Order.Field.Power
import Mathlib.Tactic.Linarith
import Mathlib.Tactic.Positivity
import Mathlib.Tactic.FieldSimp
import Mathlib.Tactic.Ring
import Mathlib.Tactic.NormNum
import CueSheet.Numeric.Binary64

/-!
# The nearest binary64 number

Binary64 numbers of any magnitude are the numbers `m * 2 ^ e` with `m` below `2 ^ 53` and `e` at
least `-1074` (`OnGrid`). `nearest` is the rounding to one of them without regard to the greatest
magnitude. It stays on the grid (`onGrid_nearest`), no number on the grid is nearer
(`abs_nearest_sub_le`), and from these two follow all other facts: numbers on the grid stay where
they are (`nearest_of_onGrid`), and greater numbers have greater roundings (`nearest_mono`).
-/

namespace CueSheet

/-- A power of two in the notation of the library. -/
theorem twoTo_eq (n : ℕ) : twoTo n = 2 ^ n := rfl

/-- A power of ten in the notation of the library. -/
theorem tenTo_eq (n : ℕ) : tenTo n = 10 ^ n := rfl

/-- A number of at least zero is a binary64 number of any magnitude. -/
def OnGrid (r : ℚ) : Prop := ∃ (m : ℕ) (e : ℤ), m < 2 ^ 53 ∧ -1074 ≤ e ∧ r = m * 2 ^ e

/-- The nearest binary64 number to a number of at least zero, without regard to the greatest
magnitude. -/
def nearest (q : ℚ) : ℚ := nearestMagnitude q.num.natAbs q.den

/-! ## Rounding a quotient to a whole number -/

/-- The rounded quotient is at most one half away from the quotient. -/
theorem abs_roundHalfEven_sub_le (n : ℕ) {d : ℕ} (hd : 0 < d) :
    |(roundHalfEven n d : ℚ) - n / d| ≤ 1 / 2 := by
  have hdq : (0 : ℚ) < d := by exact_mod_cast hd
  have hsplit : (n : ℚ) = d * (n / d : ℕ) + (n % d : ℕ) := by exact_mod_cast (Nat.div_add_mod n d).symm
  have hquotient : (n : ℚ) / d = (n / d : ℕ) + (n % d : ℕ) / d := by
    rw [hsplit]
    field_simp
  have hrest0 : (0 : ℚ) ≤ (n % d : ℕ) / d := by positivity
  unfold roundHalfEven
  rw [hquotient]
  rcases lt_trichotomy (2 * (n % d)) d with hlt | heq | hgt
  · -- Below the middle, the quotient is rounded down.
    have hrest : ((n % d : ℕ) : ℚ) / d < 1 / 2 := by
      rw [div_lt_div_iff₀ hdq (by norm_num)]
      exact_mod_cast (by omega : n % d * 2 < 1 * d)
    rw [Nat.compare_eq_lt.2 hlt]
    rw [abs_le]
    constructor <;> simp only [] <;> linarith
  · -- In the middle, both neighbours are half a unit away.
    have hrest : ((n % d : ℕ) : ℚ) / d = 1 / 2 := by
      rw [div_eq_div_iff hdq.ne' (by norm_num)]
      exact_mod_cast (by omega : n % d * 2 = 1 * d)
    rw [Nat.compare_eq_eq.2 heq, hrest, abs_le]
    dsimp only
    split <;> constructor <;> push_cast <;> linarith
  · -- Above the middle, it is rounded up.
    have hrest : 1 / 2 < ((n % d : ℕ) : ℚ) / d := by
      rw [div_lt_div_iff₀ (by norm_num) hdq]
      exact_mod_cast (by omega : 1 * d < n % d * 2)
    have hrest1 : ((n % d : ℕ) : ℚ) / d < 1 := by
      rw [div_lt_one hdq]
      exact_mod_cast Nat.mod_lt n hd
    rw [Nat.compare_eq_gt.2 hgt, abs_le]
    constructor <;> push_cast <;> linarith

/-- No whole number is nearer to a number than one that is at most one half away. -/
theorem abs_sub_le_of_half {x : ℚ} {r k : ℤ} (h : |(r : ℚ) - x| ≤ 1 / 2) :
    |(r : ℚ) - x| ≤ |(k : ℚ) - x| := by
  rcases eq_or_ne k r with rfl | hne
  · exact le_rfl
  · have hone : (1 : ℚ) ≤ |(k : ℚ) - r| := by exact_mod_cast Int.one_le_abs (sub_ne_zero.2 hne)
    have htriangle : |(k : ℚ) - r| ≤ |(k : ℚ) - x| + |(r : ℚ) - x| := by
      calc |(k : ℚ) - r| = |((k : ℚ) - x) - ((r : ℚ) - x)| := by rw [sub_sub_sub_cancel_right]
        _ ≤ |(k : ℚ) - x| + |(r : ℚ) - x| := abs_sub _ _
    linarith

/-! ## The place of the first binary digit -/

/-- A power with a whole exponent is a quotient of two powers, one of them `1`. -/
theorem zpow_eq_div {b : ℚ} (hb : b ≠ 0) (e : ℤ) : b ^ e = b ^ e.toNat / b ^ (-e).toNat := by
  rw [← zpow_natCast, ← zpow_natCast, ← zpow_sub₀ hb, Int.toNat_sub_toNat_neg]

/-- A power of two with a whole exponent is a quotient of two powers of two. -/
theorem zpow_two_eq_div (e : ℤ) : (2 : ℚ) ^ e = twoTo e.toNat / twoTo (-e).toNat := by
  rw [zpow_eq_div two_ne_zero, twoTo_eq, twoTo_eq]
  push_cast
  rfl

/-- A quotient is compared with a power of two by comparing natural numbers. -/
theorem div_lt_zpow_two_iff (n : ℕ) {d : ℕ} (hd : 0 < d) (e : ℤ) :
    (n : ℚ) / d < 2 ^ e ↔ n * twoTo (-e).toNat < d * twoTo e.toNat := by
  have hdq : (0 : ℚ) < d := by exact_mod_cast hd
  have hpow : (0 : ℚ) < twoTo (-e).toNat := by exact_mod_cast twoTo_pos _
  rw [zpow_two_eq_div, div_lt_div_iff₀ hdq hpow, mul_comm (twoTo e.toNat : ℚ)]
  exact_mod_cast Iff.rfl

/-- A natural number other than zero lies between the power of two of its logarithm and the next. -/
theorem zpow_log2_bounds {n : ℕ} (hn : n ≠ 0) :
    (2 : ℚ) ^ (n.log2 : ℤ) ≤ n ∧ (n : ℚ) < 2 ^ ((n.log2 : ℤ) + 1) := by
  refine ⟨?_, ?_⟩
  · rw [zpow_natCast]
    exact_mod_cast Nat.log2_self_le hn
  · rw [← Nat.cast_succ, zpow_natCast]
    exact_mod_cast Nat.lt_log2_self

/-- `floorLog2` is the exponent of the greatest power of two that is at most the quotient. -/
theorem floorLog2_bounds {n d : ℕ} (hn : n ≠ 0) (hd : d ≠ 0) :
    (2 : ℚ) ^ floorLog2 n d ≤ n / d ∧ (n : ℚ) / d < 2 ^ (floorLog2 n d + 1) := by
  have hdpos : 0 < d := Nat.pos_of_ne_zero hd
  have hdq : (0 : ℚ) < d := by exact_mod_cast hdpos
  obtain ⟨hn1, hn2⟩ := zpow_log2_bounds hn
  obtain ⟨hd1, hd2⟩ := zpow_log2_bounds hd
  unfold floorLog2
  dsimp only
  split_ifs with h
  · -- The quotient is below the guess, and by less than a factor of two.
    refine ⟨?_, ?_⟩
    · rw [le_div_iff₀ hdq]
      calc (2 : ℚ) ^ ((n.log2 : ℤ) - d.log2 - 1) * d
          ≤ 2 ^ ((n.log2 : ℤ) - d.log2 - 1) * 2 ^ ((d.log2 : ℤ) + 1) := by gcongr
        _ = 2 ^ (n.log2 : ℤ) := by rw [← zpow_add₀ two_ne_zero]; congr 1; ring
        _ ≤ n := hn1
    · rw [sub_add_cancel]
      exact (div_lt_zpow_two_iff n hdpos _).2 h
  · refine ⟨?_, ?_⟩
    · exact le_of_not_gt fun hlt => h ((div_lt_zpow_two_iff n hdpos _).1 hlt)
    · rw [div_lt_iff₀ hdq]
      calc (n : ℚ) < 2 ^ ((n.log2 : ℤ) + 1) := hn2
        _ = 2 ^ ((n.log2 : ℤ) - d.log2 + 1) * 2 ^ (d.log2 : ℤ) := by
            rw [← zpow_add₀ two_ne_zero]; congr 1; ring
        _ ≤ 2 ^ ((n.log2 : ℤ) - d.log2 + 1) * d := by gcongr

/-! ## The nearest number on the grid -/

/-- The quotient of the numerator and the denominator of a number is the magnitude of the number. -/
theorem natAbs_div_den (q : ℚ) : (q.num.natAbs : ℚ) / q.den = |q| := by
  conv_rhs => rw [← Rat.num_div_den q, abs_div, Nat.abs_cast, ← Int.cast_abs]
  rw [Nat.cast_natAbs]

/-- The exponent of the last place that is kept of a number. -/
def lastPlaceOf (q : ℚ) : ℤ := lastPlace q.num.natAbs q.den

/-- No place below the last place of the least numbers is kept. -/
theorem lastPlaceOf_ge (q : ℚ) : -1074 ≤ lastPlaceOf q := le_max_right _ _

/-- The significant digits of a number take at most 53 binary places. -/
theorem div_lastPlaceOf_lt {q : ℚ} (hq : 0 ≤ q) : q / 2 ^ lastPlaceOf q < 2 ^ 53 := by
  rw [div_lt_iff₀ (by positivity)]
  rcases eq_or_lt_of_le hq with rfl | hpos
  · positivity
  obtain ⟨-, hlt⟩ := floorLog2_bounds (n := q.num.natAbs) (d := q.den)
    (by simpa using hpos.ne') q.den_ne_zero
  rw [natAbs_div_den, abs_of_nonneg hq] at hlt
  calc q < 2 ^ (floorLog2 q.num.natAbs q.den + 1) := hlt
    _ ≤ 2 ^ (53 + lastPlaceOf q) := by
        have : floorLog2 q.num.natAbs q.den - 52 ≤ lastPlaceOf q := le_max_left _ _
        exact zpow_le_zpow_right₀ one_le_two (by omega)
    _ = 2 ^ 53 * 2 ^ lastPlaceOf q := by rw [zpow_add₀ two_ne_zero]; norm_cast

/-- Above the last place of the least numbers, all 53 binary places are taken. -/
theorem le_div_lastPlaceOf {q : ℚ} (hq : 0 < q) (h : -1074 < lastPlaceOf q) :
    2 ^ 52 ≤ q / 2 ^ lastPlaceOf q := by
  have hplace : lastPlaceOf q = floorLog2 q.num.natAbs q.den - 52 := by
    rcases max_choice (floorLog2 q.num.natAbs q.den - 52) (-1074) with hmax | hmax
    · exact hmax
    · exact absurd (hmax.symm.trans_gt h) (lt_irrefl _)
  rw [le_div_iff₀ (by positivity)]
  obtain ⟨hle, -⟩ := floorLog2_bounds (n := q.num.natAbs) (d := q.den)
    (by simpa using hq.ne') q.den_ne_zero
  rw [natAbs_div_den, abs_of_pos hq] at hle
  calc (2 : ℚ) ^ 52 * 2 ^ lastPlaceOf q
      = 2 ^ floorLog2 q.num.natAbs q.den := by
        rw [hplace, ← zpow_natCast, ← zpow_add₀ two_ne_zero]; congr 1; push_cast; ring
    _ ≤ q := hle

/-- The nearest number is a whole number of last places, at most half a last place away. -/
theorem exists_nearest_eq {q : ℚ} (hq : 0 ≤ q) :
    ∃ m : ℕ, nearest q = m * 2 ^ lastPlaceOf q ∧ |(m : ℚ) - q / 2 ^ lastPlaceOf q| ≤ 1 / 2 := by
  have hmagnitude : (q.num.natAbs : ℚ) / q.den = q := by rw [natAbs_div_den, abs_of_nonneg hq]
  unfold nearest nearestMagnitude
  dsimp only
  rw [← lastPlaceOf]
  split_ifs with h
  · have hzero : (-lastPlaceOf q).toNat = 0 := by omega
    have hpow : (2 : ℚ) ^ lastPlaceOf q = twoTo (lastPlaceOf q).toNat := by
      rw [zpow_two_eq_div, hzero, twoTo_zero, Nat.cast_one, div_one]
    refine ⟨roundHalfEven q.num.natAbs (q.den * twoTo (lastPlaceOf q).toNat), ?_, ?_⟩
    · rw [hpow, Nat.cast_mul]
    · have := abs_roundHalfEven_sub_le q.num.natAbs
        (Nat.mul_pos q.den_pos (twoTo_pos (lastPlaceOf q).toNat))
      rwa [Nat.cast_mul, ← div_div, hmagnitude, ← hpow] at this
  · have hzero : (lastPlaceOf q).toNat = 0 := by omega
    have hpow : (2 : ℚ) ^ lastPlaceOf q = 1 / twoTo (-lastPlaceOf q).toNat := by
      rw [zpow_two_eq_div, hzero, twoTo_zero, Nat.cast_one]
    refine ⟨roundHalfEven (q.num.natAbs * twoTo (-lastPlaceOf q).toNat) q.den, ?_, ?_⟩
    · rw [hpow, mul_one_div, Rat.mkRat_eq_div, Int.cast_natCast]
    · have := abs_roundHalfEven_sub_le (q.num.natAbs * twoTo (-lastPlaceOf q).toNat) q.den_pos
      rw [Nat.cast_mul, mul_div_right_comm, hmagnitude] at this
      rwa [hpow, div_div_eq_mul_div, div_one]

/-- Zero is its own rounding. -/
theorem nearest_zero : nearest 0 = 0 := by decide +kernel

/-- The rounding of a number of at least zero is at least zero. -/
theorem nearest_nonneg {q : ℚ} (hq : 0 ≤ q) : 0 ≤ nearest q := by
  obtain ⟨m, hm, -⟩ := exists_nearest_eq hq
  rw [hm]
  positivity

/-- The rounding of a number is a binary64 number. -/
theorem onGrid_nearest {q : ℚ} (hq : 0 ≤ q) : OnGrid (nearest q) := by
  obtain ⟨m, hm, hhalf⟩ := exists_nearest_eq hq
  have hlt := div_lastPlaceOf_lt hq
  have hle : m ≤ 2 ^ 53 := by
    have : (m : ℚ) < 2 ^ 53 + 1 := by linarith [(abs_le.1 hhalf).2]
    exact Nat.lt_succ_iff.1 (by exact_mod_cast this)
  rcases hle.lt_or_eq with h | rfl
  · exact ⟨m, lastPlaceOf q, h, lastPlaceOf_ge q, hm⟩
  · -- A carry over all places leaves a power of two.
    refine ⟨2 ^ 52, lastPlaceOf q + 1, by norm_num, by linarith [lastPlaceOf_ge q], ?_⟩
    rw [hm, zpow_add_one₀ two_ne_zero]
    push_cast
    ring

/-- No whole number of last places is nearer to a number than its rounding. -/
theorem abs_nearest_sub_le_of_places {q : ℚ} (hq : 0 ≤ q) (k : ℕ) :
    |nearest q - q| ≤ |k * 2 ^ lastPlaceOf q - q| := by
  obtain ⟨m, hm, hhalf⟩ := exists_nearest_eq hq
  have hplace : (0 : ℚ) < 2 ^ lastPlaceOf q := by positivity
  have hscale (x : ℚ) : |x * 2 ^ lastPlaceOf q - q|
      = |x - q / 2 ^ lastPlaceOf q| * 2 ^ lastPlaceOf q := by
    rw [← abs_of_pos hplace, ← abs_mul, abs_of_pos hplace, sub_mul, div_mul_cancel₀ _ hplace.ne']
  have hnearest := abs_sub_le_of_half (r := m) (k := k) (by rwa [Int.cast_natCast])
  rw [Int.cast_natCast] at hnearest
  rw [hm, hscale, hscale]
  exact mul_le_mul_of_nonneg_right hnearest hplace.le

/-- No binary64 number is nearer to a number than its rounding. -/
theorem abs_nearest_sub_le {q r : ℚ} (hq : 0 ≤ q) (hr : OnGrid r) : |nearest q - q| ≤ |r - q| := by
  rcases eq_or_lt_of_le hq with rfl | hpos
  · rw [nearest_zero, sub_self, abs_zero]
    exact abs_nonneg _
  obtain ⟨k, f, hk, hf, rfl⟩ := hr
  rcases le_or_gt (lastPlaceOf q) f with hplaces | hplaces
  · -- The other number is a whole number of last places too.
    obtain ⟨n, hn⟩ := Int.eq_ofNat_of_zero_le (sub_nonneg.2 hplaces)
    have hwhole : (k : ℚ) * 2 ^ f = (k * 2 ^ n : ℕ) * 2 ^ lastPlaceOf q := by
      rw [show f = n + lastPlaceOf q by omega, zpow_add₀ two_ne_zero]
      push_cast
      rw [zpow_natCast, mul_assoc]
    rw [hwhole]
    exact abs_nearest_sub_le_of_places hq _
  · -- The other number is below the power of two at which the last place of the number begins.
    have hfull : 2 ^ 52 * 2 ^ lastPlaceOf q ≤ q :=
      (le_div_iff₀ (by positivity)).1 (le_div_lastPlaceOf hpos (hf.trans_lt hplaces))
    have hbelow : (k : ℚ) * 2 ^ f ≤ 2 ^ 52 * 2 ^ lastPlaceOf q := by
      have hk' : (k : ℚ) ≤ 2 ^ 53 := by exact_mod_cast hk.le
      calc (k : ℚ) * 2 ^ f ≤ 2 ^ 53 * 2 ^ (lastPlaceOf q - 1) := by
            gcongr
            · exact one_le_two
            · exact Int.le_sub_one_of_lt hplaces
        _ = 2 ^ 52 * 2 ^ lastPlaceOf q := by
            rw [zpow_sub_one₀ two_ne_zero, pow_succ 2 52]
            field_simp
    have hpower := abs_nearest_sub_le_of_places hq (2 ^ 52)
    rw [Nat.cast_pow, Nat.cast_ofNat] at hpower
    calc |nearest q - q| ≤ |2 ^ 52 * 2 ^ lastPlaceOf q - q| := hpower
      _ = q - 2 ^ 52 * 2 ^ lastPlaceOf q := by
          rw [abs_sub_comm, abs_of_nonneg (sub_nonneg.2 hfull)]
      _ ≤ q - k * 2 ^ f := by gcongr
      _ ≤ |k * 2 ^ f - q| := by rw [abs_sub_comm]; exact le_abs_self _

/-- A binary64 number is its own rounding. -/
theorem nearest_of_onGrid {r : ℚ} (hr : 0 ≤ r) (h : OnGrid r) : nearest r = r := by
  have := abs_nearest_sub_le hr h
  rwa [sub_self, abs_zero, abs_nonpos_iff, sub_eq_zero] at this

/-- A greater number has a greater rounding. -/
theorem nearest_mono {p q : ℚ} (hp : 0 ≤ p) (h : p ≤ q) : nearest p ≤ nearest q := by
  have hq := hp.trans h
  by_contra! hlt
  have hpnear := abs_nearest_sub_le hp (onGrid_nearest hq)
  have hqnear := abs_nearest_sub_le hq (onGrid_nearest hp)
  -- Both numbers would have to lie half way between the two roundings.
  have hmiddle : p = q := by
    rw [← sq_le_sq] at hpnear hqnear
    nlinarith
  rw [hmiddle] at hlt
  exact lt_irrefl _ hlt

end CueSheet
