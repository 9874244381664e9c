import CueSheet.Proofs.Numeric.Order

/-!
# Exact arithmetic

Under the rounding that keeps every rational (`Rounding.exact`), a sum, difference, product or
quotient of finite quantities has a result, and its rational is the sum, difference, product or
quotient of their rationals. The sign of a zero and the kind of a number make no difference. Without
its fraction a quantity of at least zero is the floor of its rational.
-/

namespace CueSheet

namespace Extended

variable {x y : Extended} {p q : ℚ}

/-- The value of opposite sign has the rational of opposite sign. -/
theorem toRat?_neg (hx : x.toRat? = some p) : x.neg.toRat? = some (-p) := by
  obtain rfl | ⟨rfl, rfl⟩ := eq_finite_or_negZero hx
  · unfold neg
    dsimp only
    split_ifs with hzero
    · rw [hzero]
      rfl
    · rfl
  · rfl

/-- The exact sum of finite values has the sum of their rationals. -/
theorem toRat?_add_exact (hx : x.toRat? = some p) (hy : y.toRat? = some q) :
    (add .exact x y).toRat? = some (p + q) := by
  obtain rfl | ⟨rfl, rfl⟩ := eq_finite_or_negZero hx
  · obtain rfl | ⟨rfl, rfl⟩ := eq_finite_or_negZero hy <;> rfl
  · obtain rfl | ⟨rfl, rfl⟩ := eq_finite_or_negZero hy
    · rfl
    · rw [add_zero]
      rfl

/-- The exact difference of finite values has the difference of their rationals. -/
theorem toRat?_sub_exact (hx : x.toRat? = some p) (hy : y.toRat? = some q) :
    (sub .exact x y).toRat? = some (p - q) := by
  rw [sub, toRat?_add_exact hx (toRat?_neg hy), sub_eq_add_neg]

/-- An exact result has its rational, whatever the sign of a zero. -/
theorem toRat?_signed_exact (negative : Bool) (q : ℚ) :
    (signed .exact negative q).toRat? = some q := by
  unfold signed
  split_ifs with hzero
  · rw [hzero]
    cases negative <;> rfl
  · rfl

/-- The exact product of finite values has the product of their rationals. -/
theorem toRat?_mul_exact (hx : x.toRat? = some p) (hy : y.toRat? = some q) :
    (mul .exact x y).toRat? = some (p * q) := by
  obtain rfl | ⟨rfl, rfl⟩ := eq_finite_or_negZero hx <;>
    obtain rfl | ⟨rfl, rfl⟩ := eq_finite_or_negZero hy <;> exact toRat?_signed_exact ..

/-- The exact quotient of finite values has the quotient of their rationals. -/
theorem toRat?_div_exact (hx : x.toRat? = some p) (hy : y.toRat? = some q) :
    (div .exact x y).toRat? = some (p / q) := by
  obtain rfl | ⟨rfl, rfl⟩ := eq_finite_or_negZero hx <;>
    obtain rfl | ⟨rfl, rfl⟩ := eq_finite_or_negZero hy <;> exact toRat?_signed_exact ..

/-- An exact result without a sign is its rational. -/
theorem signed_exact (q : ℚ) : signed .exact false q = finite q := by
  unfold signed
  split_ifs with hzero
  · rw [hzero]
    rfl
  · rfl

/-- The exact product of values of at least zero has no sign. -/
theorem mul_exact (hp : 0 ≤ p) (hq : 0 ≤ q) :
    mul .exact (finite p) (finite q) = finite (p * q) := by
  unfold mul
  simp only [isNegative, not_lt.2 hp, not_lt.2 hq, decide_false, bne_self_eq_false]
  exact signed_exact _

/-- The exact quotient of values of at least zero has no sign. -/
theorem div_exact (hp : 0 ≤ p) (hq : 0 ≤ q) :
    div .exact (finite p) (finite q) = finite (p / q) := by
  unfold div
  simp only [isNegative, not_lt.2 hp, not_lt.2 hq, decide_false, bne_self_eq_false]
  exact signed_exact _

end Extended

/-- A computation has a result, and it is finite with the given rational. -/
def IsExactly (x : Except Fault Number) (q : ℚ) : Prop := ∃ z, x = .ok z ∧ z.toRat? = some q

/-- A computation whose second step uses the result of the first one. -/
theorem IsExactly.bind {x : Except Fault Number} {f : Number → Except Fault Number} {p q : ℚ}
    (hx : IsExactly x p) (hf : ∀ z, z.toRat? = some p → IsExactly (f z) q) :
    IsExactly (x >>= f) q := by
  obtain ⟨z, rfl, hz⟩ := hx
  exact hf z hz

namespace Number

variable {x y : Number} {p q : ℚ}

/-- A whole number has itself as its rational. -/
theorem toRat?_of_whole? {n : ℤ} (h : x.whole? = some n) : x.toRat? = some (n : ℚ) := by
  cases x with
  | real => cases h
  | int =>
    obtain rfl := Option.some.inj h
    rfl
  | bool b =>
    obtain rfl := Option.some.inj h
    cases b <;> rfl

/-- Every quantity is read as the real number that it is. -/
theorem exists_toReal_exact (hx : x.toRat? = some p) :
    ∃ r, x.toReal .exact = .ok r ∧ r.toRat? = some p := by
  cases x with
  | int n => exact ⟨.finite n, rfl, hx⟩
  | real r => exact ⟨r, rfl, hx⟩
  | bool b => exact ⟨_, rfl, hx⟩

/-- An operation that is exact on whole numbers and on real numbers is exact on quantities. -/
theorem isExactly_combine {whole : ℤ → ℤ → ℤ} {rounded : Extended → Extended → Extended}
    {f : ℚ → ℚ → ℚ} (hwhole : ∀ m n : ℤ, ((whole m n : ℤ) : ℚ) = f m n)
    (hrounded : ∀ {x y : Extended} {p q : ℚ}, x.toRat? = some p → y.toRat? = some q →
      (rounded x y).toRat? = some (f p q))
    (hx : x.toRat? = some p) (hy : y.toRat? = some q) :
    IsExactly (combine .exact whole rounded x y) (f p q) := by
  unfold combine
  split
  next m n hm hn =>
    obtain rfl := Option.some.inj (hx.symm.trans (toRat?_of_whole? hm))
    obtain rfl := Option.some.inj (hy.symm.trans (toRat?_of_whole? hn))
    exact ⟨_, rfl, by rw [← hwhole]; rfl⟩
  next =>
    obtain ⟨r, hr, hrp⟩ := exists_toReal_exact hx
    obtain ⟨s, hs, hsq⟩ := exists_toReal_exact hy
    rw [hr, hs]
    exact ⟨_, rfl, hrounded hrp hsq⟩

/-- A sum is exact. -/
theorem isExactly_add (hx : x.toRat? = some p) (hy : y.toRat? = some q) :
    IsExactly (add .exact x y) (p + q) :=
  isExactly_combine Int.cast_add Extended.toRat?_add_exact hx hy

/-- A difference is exact. -/
theorem isExactly_sub (hx : x.toRat? = some p) (hy : y.toRat? = some q) :
    IsExactly (sub .exact x y) (p - q) :=
  isExactly_combine Int.cast_sub Extended.toRat?_sub_exact hx hy

/-- A product is exact. -/
theorem isExactly_mul (hx : x.toRat? = some p) (hy : y.toRat? = some q) :
    IsExactly (mul .exact x y) (p * q) :=
  isExactly_combine Int.cast_mul Extended.toRat?_mul_exact hx hy

/-- The quotient of whole numbers is exact. -/
theorem isExactly_divWhole (m : ℤ) {n : ℤ} (hn : n ≠ 0) :
    IsExactly (divWhole .exact m n) (m / n : ℚ) := by
  unfold divWhole
  rw [if_neg hn]
  split_ifs with hzero
  · refine ⟨_, rfl, ?_⟩
    rw [hzero, Int.cast_zero, zero_div]
    cases decide (n < 0) <;> rfl
  · exact ⟨_, rfl, rfl⟩

/-- A quotient is exact, if the divisor is not zero. -/
theorem isExactly_div (hx : x.toRat? = some p) (hy : y.toRat? = some q) (hq : q ≠ 0) :
    IsExactly (div .exact x y) (p / q) := by
  unfold div
  split
  next m n hm hn =>
    obtain rfl := Option.some.inj (hx.symm.trans (toRat?_of_whole? hm))
    obtain rfl := Option.some.inj (hy.symm.trans (toRat?_of_whole? hn))
    exact isExactly_divWhole m (Int.cast_ne_zero.1 hq)
  next =>
    obtain ⟨r, hr, hrp⟩ := exists_toReal_exact hx
    obtain ⟨s, hs, hsq⟩ := exists_toReal_exact hy
    have hzero : s.isZero = false := Extended.isZero_eq_false hsq hq
    rw [hr, hs]
    simp only [ok_bind, hzero]
    exact ⟨_, rfl, Extended.toRat?_div_exact hrp hsq⟩

/-- A quantity above zero is read as the rational that it is, without a sign. -/
theorem toReal_exact (hx : x.toRat? = some p) (hp : 0 < p) : x.toReal .exact = .ok (.finite p) := by
  obtain ⟨r, hr, hrp⟩ := exists_toReal_exact hx
  obtain rfl | ⟨rfl, rfl⟩ := Extended.eq_finite_or_negZero hrp
  · exact hr
  · exact absurd hp (lt_irrefl 0)

/-- A real number of at least zero times a quantity of at least zero has no sign. -/
theorem real_mul_exact (hp : 0 ≤ p) (hy : y.toReal .exact = .ok (.finite q)) (hq : 0 ≤ q) :
    mul .exact (.real (.finite p)) y = .ok (.real (.finite (p * q))) := by
  rw [real_mul, hy, ok_bind, Extended.mul_exact hp hq]

/-- A count times a real number of at least zero has no sign. -/
theorem natCast_mul_exact (n : ℕ) (hp : 0 ≤ p) :
    mul .exact (.int n) (.real (.finite p)) = .ok (.real (.finite (n * p))) :=
  congrArg (fun x => Except.ok (real x)) (Extended.mul_exact (Nat.cast_nonneg n) hp)

/-- A real number of at least zero times a count has no sign. -/
theorem mul_natCast_exact (n : ℕ) (hp : 0 ≤ p) :
    mul .exact (.real (.finite p)) (.int n) = .ok (.real (.finite (p * n))) :=
  real_mul_exact hp rfl (Nat.cast_nonneg n)

/-- A real number of at least zero divided by a quantity above zero has no sign. -/
theorem real_div_exact (hp : 0 ≤ p) (hy : y.toReal .exact = .ok (.finite q)) (hq : 0 < q) :
    div .exact (.real (.finite p)) y = .ok (.real (.finite (p / q))) := by
  rw [real_div, hy, ok_bind, Extended.div_exact hp hq.le,
    Extended.isZero_eq_false (Extended.toRat?_finite q) hq.ne']
  rfl

/-- A quantity of at least zero without its fraction is its floor. -/
theorem truncate_eq_floor (hx : x.toRat? = some p) (hp : 0 ≤ p) : x.truncate = .ok ⌊p⌋ := by
  cases x with
  | int n =>
    obtain rfl := Option.some.inj hx
    rw [truncate, Int.floor_intCast]
  | bool b =>
    obtain rfl := Option.some.inj hx
    cases b <;> simp [truncate]
  | real r =>
    obtain rfl | ⟨rfl, rfl⟩ := Extended.eq_finite_or_negZero hx
    · rw [truncate, Int.tdiv_eq_ediv_of_nonneg (Rat.num_nonneg.2 hp), ← Rat.floor_def']
    · rw [truncate, Int.floor_zero]

end Number

end CueSheet
