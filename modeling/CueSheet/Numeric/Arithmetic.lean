import CueSheet.Fault
import CueSheet.Numeric.Binary64

/-!
# Arithmetic of numbers

Whole numbers are added, subtracted and multiplied without bound. As soon as one operand is real, or
a quotient is taken, the operands are read as real numbers and the result is rounded. A whole number
beyond the real numbers that are kept, and a division by zero, are faults.
-/

namespace CueSheet.Number

/-- The real number nearest to a quantity; a fault if only an infinity is near. -/
def toReal (ρ : Rounding) : Number → Except Fault Extended
  | real x => .ok x
  | int n =>
    match ρ n with
    | .infinite _ => .error .wholeTooLarge
    | x => .ok x
  | bool b => .ok (.finite (if b then 1 else 0))

/-- Whether a quantity is finite; a fault if a whole number is beyond the real numbers. -/
def checkFinite (ρ : Rounding) (x : Number) : Except Fault Bool :=
  return (← x.toReal ρ).isFinite

/-- An operation that is exact on whole numbers and rounded on real ones. -/
def combine (ρ : Rounding) (whole : Int → Int → Int) (rounded : Extended → Extended → Extended)
    (x y : Number) : Except Fault Number :=
  match x.whole?, y.whole? with
  | some m, some n => .ok (.int (whole m n))
  | _, _ => do return .real (rounded (← x.toReal ρ) (← y.toReal ρ))

/-- The sum of two numbers. -/
def add (ρ : Rounding) : Number → Number → Except Fault Number :=
  combine ρ (· + ·) (Extended.add ρ)

/-- The difference of two numbers. -/
def sub (ρ : Rounding) : Number → Number → Except Fault Number :=
  combine ρ (· - ·) (Extended.sub ρ)

/-- The product of two numbers. -/
def mul (ρ : Rounding) : Number → Number → Except Fault Number :=
  combine ρ (· * ·) (Extended.mul ρ)

/-- The quotient of two whole numbers, always a real number. -/
def divWhole (ρ : Rounding) (m n : Int) : Except Fault Number :=
  if n = 0 then .error .wholeDividedByZero
  else if m = 0 then .ok (.real (.zero (n < 0)))
  else
    match ρ (m / n : Rat) with
    | .infinite _ => .error .quotientTooLarge
    | x => .ok (.real x)

/-- The quotient of two numbers, always a real number. -/
def div (ρ : Rounding) (x y : Number) : Except Fault Number :=
  match x.whole?, y.whole? with
  | some m, some n => divWhole ρ m n
  | _, _ => do
    let p ← x.toReal ρ
    let q ← y.toReal ρ
    if q.isZero then throw .realDividedByZero
    return .real (.div ρ p q)

/-- The whole number of a quantity, with any fraction dropped. -/
def truncate (x : Number) : Except Fault Int :=
  match x with
  | int n => .ok n
  | bool b => .ok (if b then 1 else 0)
  | real .nan => .error .nanToWhole
  | real (.infinite _) => .error .infinityToWhole
  | real .negZero => .ok 0
  | real (.finite q) => .ok (Int.tdiv q.num q.den)

end CueSheet.Number
