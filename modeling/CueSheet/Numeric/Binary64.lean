import CueSheet.Numeric.Extended
import CueSheet.Numeric.Power

/-!
# The rounding of binary64

A binary64 number is `m · 2 ^ e` with `m` below `2 ^ 53` and `e` at least `-1074`; its magnitude
stays below `2 ^ 1024`. An exact result goes to the nearest of these numbers, and from half way
between two of them to the one with even `m`. What reaches `2 ^ 1024` becomes infinite, and what
goes to zero keeps its sign.
-/

namespace CueSheet

/-- The nearest natural number to `n / d`, the even one from half way. -/
def roundHalfEven (n d : Nat) : Nat :=
  let floor := n / d
  match compare (2 * (n % d)) d with
  | .lt => floor
  | .gt => floor + 1
  | .eq => if floor % 2 = 0 then floor else floor + 1

/-- The greatest `e` with `2 ^ e ≤ n / d`, for positive `n` and `d`. -/
def floorLog2 (n d : Nat) : Int :=
  -- The quotient lies between `2 ^ (e - 1)` and `2 ^ (e + 1)`.
  let e : Int := (n.log2 : Int) - d.log2
  if n * twoTo (-e).toNat < d * twoTo e.toNat then e - 1 else e

/-- The exponent of the last place that binary64 keeps of a number of the given magnitude. -/
def lastPlace (n d : Nat) : Int := max (floorLog2 n d - 52) (-1074)

/-- The binary64 number nearest to `n / d`, without regard to the greatest magnitude. -/
def nearestMagnitude (n d : Nat) : Rat :=
  let e := lastPlace n d
  if 0 ≤ e then ((roundHalfEven n (d * twoTo e.toNat) * twoTo e.toNat : Nat) : Rat)
  else mkRat (roundHalfEven (n * twoTo (-e).toNat) d) (twoTo (-e).toNat)

/-- Rounds to the nearest binary64 number, from half way to the one with even last place. -/
def Rounding.binary64 : Rounding := fun q =>
  if q = 0 then .finite 0
  else
    let negative : Bool := q < 0
    let r := nearestMagnitude q.num.natAbs q.den
    if r = 0 then .zero negative
    else if (twoTo 1024 : Rat) ≤ r then .infinite negative
    else .finite (if negative then -r else r)

end CueSheet
