import CueSheet.Numeric.Binary64

/-!
# The shortest decimal that reads back

A binary64 number is written with as few significant digits as are needed to read the same number
back, and of the decimals with that many digits with the nearest one. For each number of digits only
the two neighbours of the number on that decimal grid can be nearest, so the search tries these two,
with one digit first and with seventeen at most.
-/

namespace CueSheet

/-- The decimal number `coefficient · 10 ^ exponent`. -/
structure Decimal where
  /-- The significant digits as a number. -/
  coefficient : Nat
  /-- The power of ten of the last digit. -/
  exponent : Int
deriving DecidableEq

namespace Decimal

/-- The rational that a decimal stands for. -/
def toRat (d : Decimal) : Rat :=
  if 0 ≤ d.exponent then ((d.coefficient * tenTo d.exponent.toNat : Nat) : Rat)
  else mkRat d.coefficient (tenTo (-d.exponent).toNat)

/-- Whether the nearest binary64 number to a decimal is the given one. -/
def readsBack (q : Rat) (d : Decimal) : Bool :=
  let r := d.toRat
  nearestMagnitude r.num.natAbs r.den = q

/-- Whether `10 ^ p` is at most `n / d`. -/
def powLe (p : Int) (n d : Nat) : Bool := d * tenTo p.toNat ≤ n * tenTo (-p).toNat

/-- The place of the decimal point after which the digits of `n / d` begin: the least `p` with
`n / d < 10 ^ p`. The logarithm of two in base ten gives it up to one. -/
def pointOf (n d : Nat) : Int :=
  let guess := (floorLog2 n d * 30103) / 100000
  if powLe (guess + 1) n d then guess + 2 else if powLe guess n d then guess + 1 else guess

/-- The neighbours of `n / d` from below and from above on the grid of multiples of
`10 ^ exponent`, and the order of the distances to them. -/
def neighbours (n d : Nat) (exponent : Int) : Decimal × Decimal × Ordering :=
  let numerator := n * tenTo (-exponent).toNat
  let denominator := d * tenTo exponent.toNat
  let below := numerator / denominator
  (⟨below, exponent⟩, ⟨below + 1, exponent⟩,
    compare (2 * (numerator % denominator)) denominator)

/-- The nearest decimal on a grid that reads back, the even one of two at one distance. -/
def onGrid? (n d : Nat) (exponent : Int) : Option Decimal :=
  let q := mkRat n d
  let (below, above, distance) := neighbours n d exponent
  match readsBack q below, readsBack q above with
  | true, true =>
    match distance with
    | .lt => some below
    | .gt => some above
    | .eq => some (if below.coefficient % 2 = 0 then below else above)
  | true, false => some below
  | false, true => some above
  | false, false => none

/-- The decimal without the zeros at its end, of which at most `fuel` are dropped. -/
def trim : Nat → Decimal → Decimal
  | 0, d => d
  | fuel + 1, d =>
    if d.coefficient ≠ 0 ∧ d.coefficient % 10 = 0 then
      trim fuel ⟨d.coefficient / 10, d.exponent + 1⟩
    else d

/-- The shortest decimal that reads back as the positive binary64 number `n / d`. -/
def shortest (n d : Nat) : Decimal :=
  let point := pointOf n d
  let found := (List.range 17).findSome? fun k : Nat => onGrid? n d (point - (k + 1 : Nat))
  -- Seventeen digits always read back, so the default is never taken.
  trim 18 (found.getD (neighbours n d (point - 17)).1)

end Decimal

end CueSheet
