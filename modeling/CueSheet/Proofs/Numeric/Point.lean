import Mathlib.Order.WithBot
import CueSheet.Proofs.Numeric.Clip

/-!
# Points on a timeline

A point on a timeline is a real number of at least zero, or the infinity above all numbers that
greater amounts become (`Number.IsPoint`). Points are added, and taken times a number above zero or
divided by one, without leaving the timeline, and none of this is undefined. They are compared as
their positions on the number line are (`Number.IsPoint.compare`).
-/

namespace CueSheet

namespace Extended

variable {x y : Extended} {q : ℚ}

/-- A sum of points is a point. -/
theorem IsPoint.add (hx : x.IsPoint) (hy : y.IsPoint) : (add .binary64 x y).IsPoint := by
  obtain ⟨p, hp, hpnonneg⟩ | rfl := hx <;> obtain ⟨q, hq, hqnonneg⟩ | rfl := hy
  · exact (Clips.add_same hp hq (add_nonneg hpnonneg hqnonneg)).isPoint
  · exact .inr (Clips.infinite_add hp).2
  · exact .inr (Clips.infinite_add hq).1
  · exact .inr rfl

/-- A point times a number above zero is a point. -/
theorem IsPoint.mul (hx : x.IsPoint) (hy : y.toRat? = some q) (hq : 0 < q) :
    (mul .binary64 x y).IsPoint := by
  obtain ⟨p, hp, hnonneg⟩ | rfl := hx
  · exact (Clips.mul_same hp hy hnonneg hq.le).isPoint
  · exact .inr (Clips.infinite_mul hy hq)

/-- A point divided by a number above zero is a point. -/
theorem IsPoint.div (hx : x.IsPoint) (hy : y.toRat? = some q) (hq : 0 < q) :
    (div .binary64 x y).IsPoint := by
  obtain ⟨p, hp, hnonneg⟩ | rfl := hx
  · exact (Clips.div_same hp hy hnonneg hq).isPoint
  · exact .inr (Clips.infinite_div hy hq)

end Extended

namespace Number

variable {x y : Number}

/-- A quantity is a point on a timeline, which is a real number. -/
def IsPoint (x : Number) : Prop := ∃ r : Extended, x = .real r ∧ r.IsPoint

/-- A real number of at least zero. -/
def IsSpan (x : Number) : Prop := ∃ (r : Extended) (q : ℚ), x = .real r ∧ r.toRat? = some q ∧ 0 ≤ q

/-- A real number of at least zero is a point. -/
theorem IsSpan.isPoint (h : x.IsSpan) : x.IsPoint := by
  obtain ⟨r, q, rfl, hq⟩ := h
  exact ⟨r, rfl, .inl ⟨q, hq⟩⟩

/-- A whole number of at least zero is read as a number of at least zero. -/
theorem exists_of_toReal_int {n : ℤ} {r : Extended} (hn : 0 ≤ n)
    (h : (int n).toReal .binary64 = .ok r) : ∃ q, r.toRat? = some q ∧ 0 ≤ q := by
  have hnonneg : (0 : ℚ) ≤ n := Int.cast_nonneg hn
  rw [toReal_int] at h
  split_ifs at h
  obtain rfl := Except.ok.inj h
  rw [unlimited_of_nonneg hnonneg]
  exact ⟨_, rfl, nearest_nonneg hnonneg⟩

/-- A whole number of at least one is a number above zero. -/
theorem isTempo_int {n : ℤ} (h : 1 ≤ n) : (int n).isTempo = true :=
  isTempo_iff.2 ⟨rfl, n, toRat?_int n, by exact_mod_cast h⟩

/-- A kept number above zero is read as a real number above zero. -/
theorem exists_toReal_pos (hx : x.isTempo = true) (hkept : x.IsKept) :
    ∃ y q, x.toReal .binary64 = .ok y ∧ y.toRat? = some q ∧ 0 < q := by
  obtain ⟨hnumeric, q, hq, hpos⟩ := isTempo_iff.1 hx
  have hamount : x.IsAmount := ⟨hnumeric, hkept, q, hq, hpos.le⟩
  obtain ⟨y, hy, -, hrat⟩ := hamount.exists_toReal hq
  exact ⟨y, _, hy, hrat, hamount.nearest_pos hq hpos⟩

/-- A sum of points is a point. -/
theorem IsPoint.add {z : Number} (hx : x.IsPoint) (hy : y.IsPoint)
    (h : Number.add .binary64 x y = .ok z) : z.IsPoint := by
  obtain ⟨r, rfl, hr⟩ := hx
  obtain ⟨s, rfl, hs⟩ := hy
  obtain rfl := Except.ok.inj h
  exact ⟨_, rfl, hr.add hs⟩

/-- A point can be taken times a kept number above zero, and this is a point. -/
theorem IsPoint.exists_mul (hx : x.IsPoint) (hy : y.isTempo = true) (hkept : y.IsKept) :
    ∃ z, Number.mul .binary64 x y = .ok z ∧ z.IsPoint := by
  obtain ⟨r, rfl, hr⟩ := hx
  obtain ⟨factor, q, hfactor, hq, hpos⟩ := exists_toReal_pos hy hkept
  refine ⟨_, ?_, _, rfl, hr.mul hq hpos⟩
  rw [real_mul, hfactor, ok_bind]

/-- A point can be divided by the number of seconds in a minute or that of milliseconds in a second,
and this is a point. -/
theorem IsPoint.exists_div_factor (hx : x.IsPoint) {n : ℤ} (hn : n = 60 ∨ n = 1000) :
    ∃ z, Number.div .binary64 x (int n) = .ok z ∧ z.IsPoint := by
  obtain ⟨r, rfl, hr⟩ := hx
  refine ⟨_, real_div_factor r hn, _, rfl, hr.div rfl ?_⟩
  rcases hn with rfl | rfl <;> norm_num

/-- The position of a point on the number line, with the infinity at its end. -/
def position (x : Number) : WithTop ℚ :=
  match x.toRat? with
  | some q => q
  | none => ⊤

/-- The position of a finite quantity is its rational. -/
theorem position_of_toRat? {q : ℚ} (hx : x.toRat? = some q) : x.position = (q : WithTop ℚ) := by
  unfold position
  rw [hx]

/-- Points are compared as their positions are. -/
theorem IsPoint.compare (hx : x.IsPoint) (hy : y.IsPoint) :
    (x.lt y = true ↔ x.position < y.position) ∧ (x.eq y = true ↔ x.position = y.position) := by
  obtain ⟨r, rfl, ⟨p, hp, -⟩ | rfl⟩ := hx <;> obtain ⟨s, rfl, ⟨q, hq, -⟩ | rfl⟩ := hy
  · have hx : (real r).toRat? = some p := hp
    have hy : (real s).toRat? = some q := hq
    rw [position_of_toRat? hx, position_of_toRat? hy, lt_iff hx hy, eq_iff hx hy,
      WithTop.coe_lt_coe, WithTop.coe_inj]
    exact ⟨Iff.rfl, Iff.rfl⟩
  · rw [position_of_toRat? (x := real r) hp]
    obtain rfl | ⟨rfl, rfl⟩ := Extended.eq_finite_or_negZero hp <;>
      exact ⟨iff_of_true rfl (WithTop.coe_lt_top _), iff_of_false nofun (WithTop.coe_ne_top)⟩
  · rw [position_of_toRat? (x := real s) hq]
    obtain rfl | ⟨rfl, rfl⟩ := Extended.eq_finite_or_negZero hq <;>
      exact ⟨iff_of_false nofun not_top_lt, iff_of_false nofun (WithTop.top_ne_coe)⟩
  · exact ⟨iff_of_false nofun (lt_irrefl _), iff_of_true rfl rfl⟩

end Number

end CueSheet
