import CueSheet.Config
import CueSheet.Proofs.Numeric.Kept
import CueSheet.Proofs.Text.Digit

/-!
# The order of quantities

Quantities that are neither infinite nor undefined are ordered as their rationals are. What is asked
of tempos and times is told here of the rationals: a tempo is one above zero (`isTempo_iff`), and an
amount is one of at least zero that can meet real numbers (`Number.IsAmount`). Every literal that is
small enough is read to an amount.
-/

namespace CueSheet

/-- Values with rationals are compared as these are. -/
theorem Extended.compare?_eq {x y : Extended} {p q : ℚ} (hx : x.toRat? = some p)
    (hy : y.toRat? = some q) :
    x.compare? y = some (if p < q then .lt else if p = q then .eq else .gt) := by
  cases x <;> cases y <;> simp_all [toRat?, compare?]

/-- A finite value is its rational, or the zero that is reached from below. -/
theorem Extended.eq_finite_or_negZero {x : Extended} {q : ℚ} (hx : x.toRat? = some q) :
    x = finite q ∨ x = negZero ∧ q = 0 := by
  cases x with
  | nan | infinite => cases hx
  | negZero => exact .inr ⟨rfl, (Option.some.inj hx).symm⟩
  | finite r => exact .inl (congrArg finite (Option.some.inj hx))

/-- A value with a rational other than zero is no zero. -/
theorem Extended.isZero_eq_false {x : Extended} {q : ℚ} (hx : x.toRat? = some q) (hq : q ≠ 0) :
    x.isZero = false := by
  obtain rfl | ⟨-, hzero⟩ := eq_finite_or_negZero hx
  · exact decide_eq_false hq
  · exact absurd hzero hq

namespace Number

variable {x y : Number} {p q : ℚ}

/-- One quantity is less than another if its rational is. -/
theorem lt_iff (hx : x.toRat? = some p) (hy : y.toRat? = some q) : x.lt y = true ↔ p < q := by
  unfold lt
  rw [Extended.compare?_eq hx hy, decide_eq_true_eq]
  split_ifs with hlt heq <;> simp [hlt]

/-- One quantity is at most another if its rational is. -/
theorem le_iff (hx : x.toRat? = some p) (hy : y.toRat? = some q) : x.le y = true ↔ p ≤ q := by
  unfold le
  rw [Extended.compare?_eq hx hy, Bool.or_eq_true, decide_eq_true_eq, decide_eq_true_eq]
  split_ifs with hlt heq
  · simp [hlt.le]
  · simp [heq]
  · simpa using lt_of_le_of_ne (not_lt.1 hlt) (Ne.symm heq)

/-- Quantities are equal if their rationals are. -/
theorem eq_iff (hx : x.toRat? = some p) (hy : y.toRat? = some q) : x.eq y = true ↔ p = q := by
  unfold eq
  rw [Extended.compare?_eq hx hy, decide_eq_true_eq]
  split_ifs with hlt heq
  · simp [hlt.ne]
  · simp [heq]
  · simp [heq]

/-- Quantities are equal in either order. -/
theorem eq_comm (x y : Number) : x.eq y = y.eq x := by
  have hcompare : x.extended.compare? y.extended = some .eq ↔
      y.extended.compare? x.extended = some .eq := by
    generalize x.extended = p
    generalize y.extended = q
    cases p <;> cases q <;> simp [Extended.compare?] <;> grind
  simp only [eq, hcompare]

/-- Of two finite quantities only one can be less than the other. -/
theorem lt_eq_false_of_lt (hx : x.toRat? = some p) (hy : y.toRat? = some q) (h : x.lt y = true) :
    y.lt x = false := by
  rw [← Bool.not_eq_true, lt_iff hy hx, not_lt]
  exact ((lt_iff hx hy).1 h).le

/-- A whole number is its own rational. -/
theorem toRat?_int (n : ℤ) : (int n).toRat? = some (n : ℚ) := rfl

/-- A quantity is above zero if its rational is. -/
theorem isPositive_iff (hx : x.toRat? = some q) : x.isPositive = true ↔ 0 < q := by
  rw [isPositive, lt_iff (toRat?_int 0) hx, Int.cast_zero]

/-- A quantity is below zero if its rational is. -/
theorem isNegative_iff (hx : x.toRat? = some q) : x.isNegative = true ↔ q < 0 := by
  rw [isNegative, lt_iff hx (toRat?_int 0), Int.cast_zero]

/-- Of whole numbers one is at most another as it is. -/
theorem le_int_iff {m n : ℤ} : (int m).le (int n) = true ↔ m ≤ n := by
  rw [le_iff (toRat?_int m) (toRat?_int n), Int.cast_le]

/-- A whole number is above zero exactly if it is at least one. -/
theorem isPositive_int_iff {n : ℤ} : (int n).isPositive = true ↔ 1 ≤ n := by
  rw [isPositive_iff (toRat?_int n), Int.cast_pos, ← Int.add_one_le_iff, zero_add]

/-- A whole number is below zero as it is. -/
theorem isNegative_int_iff {n : ℤ} : (int n).isNegative = true ↔ n < 0 := by
  rw [isNegative_iff (toRat?_int n), Int.cast_lt_zero]

/-- A quantity is finite exactly if it has a rational. -/
theorem isFinite_iff : x.isFinite = true ↔ ∃ q, x.toRat? = some q :=
  Extended.isFinite_iff_toRat? _

/-- A tempo is a number with a rational above zero. -/
theorem isTempo_iff : x.isTempo = true ↔ x.isNumeric = true ∧ ∃ q, x.toRat? = some q ∧ 0 < q := by
  unfold isTempo
  rw [Bool.and_eq_true, Bool.and_eq_true, and_assoc, isFinite_iff]
  refine and_congr_right' ⟨?_, ?_⟩
  · rintro ⟨⟨q, hq⟩, hpositive⟩
    exact ⟨q, hq, (isPositive_iff hq).1 hpositive⟩
  · rintro ⟨q, hq, hpositive⟩
    exact ⟨⟨q, hq⟩, (isPositive_iff hq).2 hpositive⟩

/-- A tempo is above zero. -/
theorem isPositive_of_isTempo (h : x.isTempo = true) : x.isPositive = true := by
  obtain ⟨-, q, hq, hpositive⟩ := isTempo_iff.1 h
  exact (isPositive_iff hq).2 hpositive

/-! ## Whole real numbers as whole numbers -/

/-- A real number becomes a whole number or stays what it is. -/
theorem normalize_real (x : Extended) :
    (∃ n : ℤ, (real x).normalize = int n ∧ x.toRat? = some (n : ℚ)) ∨
      (real x).normalize = real x := by
  cases hx : x.toRat? with
  | none =>
    refine .inr ?_
    simp [normalize, hx]
  | some q =>
    by_cases hden : q.den = 1
    · refine .inl ⟨q.num, ?_, ?_⟩
      · simp [normalize, hx, hden]
      · rw [(Rat.den_eq_one_iff q).1 hden]
    · refine .inr ?_
      simp [normalize, hx, hden]

/-- Turning whole real numbers into whole numbers keeps the quantity. -/
theorem toRat?_normalize (x : Number) : x.normalize.toRat? = x.toRat? := by
  cases x with
  | int | bool => rfl
  | real x =>
    obtain ⟨n, hn, hx⟩ | hsame := normalize_real x
    · rw [hn, toRat?_int]
      exact hx.symm
    · rw [hsame]

/-- A number whose whole real numbers are whole numbers stays as it is. -/
theorem normalize_normalize (x : Number) : x.normalize.normalize = x.normalize := by
  cases x with
  | int | bool => rfl
  | real x =>
    obtain ⟨n, hn, -⟩ | hsame := normalize_real x
    · rw [hn]
      rfl
    · rw [hsame, hsame]

/-- A number stays a number. -/
theorem isNumeric_normalize (h : x.isNumeric = true) : x.normalize.isNumeric = true := by
  cases x with
  | int | bool => exact h
  | real x => obtain ⟨n, hn, -⟩ | hsame := normalize_real x <;> simp [*, isNumeric]

/-- A tempo stays a tempo. -/
theorem isTempo_normalize (h : x.isTempo = true) : x.normalize.isTempo = true := by
  obtain ⟨hnumeric, hpositive⟩ := isTempo_iff.1 h
  rw [isTempo_iff, toRat?_normalize]
  exact ⟨isNumeric_normalize hnumeric, hpositive⟩

/-- The rational of a kept number is below `overflowAt`. -/
theorem IsKept.abs_lt (h : x.IsKept) (hx : x.toRat? = some q) : |q| < overflowAt := by
  cases x with
  | int n =>
    obtain rfl := Option.some.inj hx
    exact h
  | bool b =>
    obtain rfl := Option.some.inj hx
    cases b <;> decide +kernel
  | real x =>
    cases x with
    | nan | infinite => cases hx
    | negZero =>
      obtain rfl := Option.some.inj hx
      decide +kernel
    | finite r =>
      obtain rfl := Option.some.inj hx
      exact h.1.lt_overflowAt (abs_nonneg r) h.2

/-- A kept number stays kept. -/
theorem IsKept.normalize (h : x.IsKept) : x.normalize.IsKept := by
  cases x with
  | int | bool => exact h
  | real x =>
    obtain ⟨n, hn, hx⟩ | hsame := normalize_real x
    · rw [hn]
      exact h.abs_lt hx
    · rwa [hsame]

/-! ## Amounts -/

/-- A number of at least zero that can meet real numbers. -/
structure IsAmount (x : Number) : Prop where
  /-- It is no truth value. -/
  numeric : x.isNumeric = true
  /-- It can be read as a real number. -/
  kept : x.IsKept
  /-- It has a rational of at least zero. -/
  nonneg : ∃ q, x.toRat? = some q ∧ 0 ≤ q

end Number

/-- The rounding of a number of at least zero is at least zero. -/
theorem unlimited_of_nonneg {q : ℚ} (hq : 0 ≤ q) :
    Rounding.unlimited q = .finite (nearest q) := by
  unfold Rounding.unlimited
  dsimp only
  rw [abs_of_nonneg hq]
  by_cases hzero : q = 0
  · rw [if_pos hzero, hzero, nearest_zero]
  · rw [if_neg hzero, decide_eq_false (not_lt.2 hq), if_neg (not_lt.2 hq)]
    split_ifs with hround
    · rw [hround]
      rfl
    · rfl

/-- A binary64 number of at least zero is its own rounding. -/
theorem binary64_of_isBinary64 {q : ℚ} (hq : 0 ≤ q) (h : (Extended.finite q).IsBinary64) :
    Rounding.binary64 q = .finite q := by
  obtain ⟨hgrid, hlt⟩ := h
  rw [abs_of_nonneg hq] at hgrid hlt
  rw [binary64_eq, abs_of_nonneg hq, if_neg (not_le.2 (hgrid.lt_overflowAt hq hlt)),
    unlimited_of_nonneg hq, nearest_of_onGrid hq hgrid]

/-- The rounding of a number of at least zero that is small enough is an amount. -/
theorem isAmount_binary64 {q : ℚ} (hq : 0 ≤ q) (h : (Rounding.binary64 q).isFinite = true) :
    (Number.real (Rounding.binary64 q)).IsAmount := by
  refine ⟨rfl, isBinary64_binary64 q, nearest q, ?_, nearest_nonneg hq⟩
  rw [isFinite_binary64_iff] at h
  rw [Number.toRat?, Number.extended, binary64_eq, if_neg (not_le.2 h), unlimited_of_nonneg hq]
  rfl

namespace Literal

/-- The number of a literal that is small enough is an amount. -/
theorem isAmount_number {literal : Literal} {x : Number}
    (hfinite : (literal.real .binary64).isFinite = true) (h : literal.number .binary64 = .ok x) :
    x.IsAmount := by
  unfold number at h
  split_ifs at h with hfraction
  · obtain ⟨n, hn, h⟩ := bind_eq_ok.1 h
    obtain ⟨-, rfl⟩ := readDigits_eq_ok_iff.1 hn
    obtain rfl := pure_eq_ok_iff.1 h
    have hreal : literal.real .binary64 =
        Rounding.binary64 ((Text.ofDigits literal.whole : ℕ) : ℚ) := by
      rw [real, Extended.ofDigits, List.isEmpty_iff.1 hfraction, List.append_nil, List.length_nil,
        tenTo_zero, Rat.mkRat_one]
      rfl
    rw [hreal, isFinite_binary64_iff] at hfinite
    exact ⟨rfl, hfinite, _, Number.toRat?_int _, by positivity⟩
  · obtain rfl := pure_eq_ok_iff.1 h
    exact isAmount_binary64 (Rat.mkRat_nonneg (Int.natCast_nonneg _) _) hfinite

end Literal

end CueSheet
