/-!
# Extended rationals and their arithmetic under a rounding

A real number of this library is a rational, one of the two infinities, or the mark of an undefined
result; the zero below the number line is kept apart from the zero above it. Every operation takes
the exact rational result and hands it to a rounding, which says what is kept of it. With the exact
rounding the arithmetic is that of the rationals; with the rounding of binary64 it is that of the
usual floating-point format.
-/

namespace CueSheet

/-- A rational with signed zeros, infinities and an undefined value. -/
inductive Extended where
  /-- The undefined value. -/
  | nan
  /-- An infinity, below all numbers if `negative`. -/
  | infinite (negative : Bool)
  /-- The zero that is reached from below. -/
  | negZero
  /-- A rational number; its zero is the one that is reached from above. -/
  | finite (q : Rat)
deriving DecidableEq

/-- A rule that says what is kept of an exact result. -/
abbrev Rounding := Rat → Extended

/-- Every rational is kept as it is. -/
def Rounding.exact : Rounding := Extended.finite

namespace Extended

/-- Whether a value is a number, and so neither infinite nor undefined. -/
def isFinite : Extended → Bool
  | finite _ | negZero => true
  | infinite _ | nan => false

/-- The rational of a finite value. -/
def toRat? : Extended → Option Rat
  | finite q => some q
  | negZero => some 0
  | infinite _ | nan => none

/-- Whether a value has the sign of the negative numbers. -/
def isNegative : Extended → Bool
  | nan => false
  | infinite negative => negative
  | negZero => true
  | finite q => q < 0

/-- Whether a value is one of the two zeros. -/
def isZero : Extended → Bool
  | negZero => true
  | finite q => q = 0
  | infinite _ | nan => false

/-- The zero of a sign. -/
def zero (negative : Bool) : Extended := if negative then negZero else finite 0

/-- The value of opposite sign. -/
def neg : Extended → Extended
  | nan => nan
  | infinite negative => infinite !negative
  | negZero => finite 0
  | finite q => if q = 0 then negZero else finite (-q)

/-- The order of two values: none where one is undefined, and equal for the two zeros. -/
def compare? : Extended → Extended → Option Ordering
  | nan, _ | _, nan => none
  | infinite a, infinite b => some (if a = b then .eq else if a then .lt else .gt)
  | infinite a, _ => some (if a then .lt else .gt)
  | _, infinite b => some (if b then .gt else .lt)
  | x, y =>
    let p := x.toRat?.getD 0
    let q := y.toRat?.getD 0
    some (if p < q then .lt else if p = q then .eq else .gt)

/-- The rounded sum. -/
def add (ρ : Rounding) : Extended → Extended → Extended
  | nan, _ | _, nan => nan
  | infinite a, infinite b => if a = b then infinite a else nan
  | infinite a, _ | _, infinite a => infinite a
  | negZero, negZero => negZero
  | x, y => ρ (x.toRat?.getD 0 + y.toRat?.getD 0)

/-- The rounded difference. -/
def sub (ρ : Rounding) (x y : Extended) : Extended := add ρ x y.neg

/-- A rounded result; an exact zero takes the given sign. -/
def signed (ρ : Rounding) (negative : Bool) (q : Rat) : Extended :=
  if q = 0 then zero negative else ρ q

/-- The rounded product. -/
def mul (ρ : Rounding) (x y : Extended) : Extended :=
  let negative := x.isNegative != y.isNegative
  match x, y with
  | nan, _ | _, nan => nan
  | infinite _, y => if y.isZero then nan else infinite negative
  | x, infinite _ => if x.isZero then nan else infinite negative
  | x, y => signed ρ negative (x.toRat?.getD 0 * y.toRat?.getD 0)

/-- The rounded quotient; the divisor is not zero. -/
def div (ρ : Rounding) (x y : Extended) : Extended :=
  let negative := x.isNegative != y.isNegative
  match x, y with
  | nan, _ | _, nan => nan
  | infinite _, infinite _ => nan
  | infinite _, _ => infinite negative
  | _, infinite _ => zero negative
  | x, y => signed ρ negative (x.toRat?.getD 0 / y.toRat?.getD 0)

@[simp] theorem toRat?_finite (q : Rat) : (finite q).toRat? = some q := rfl

/-- A value is finite exactly when it has a rational. -/
theorem isFinite_iff_toRat? (x : Extended) : x.isFinite = true ↔ ∃ q, x.toRat? = some q := by
  cases x <;> simp [isFinite, toRat?]

end Extended

end CueSheet
