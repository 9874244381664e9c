import CueSheet.Numeric.Arithmetic
import CueSheet.Numeric.Shortest

/-!
# Numbers in writing

Real numbers are written with the fewest digits that read back. The digits stand around a decimal
point while the point falls among them or at most four places before and sixteen places after their
start, and next to a power of ten otherwise; a whole real number keeps one digit after the point.
Whole numbers are written in full up to 4300 digits, and beyond that not at all.
-/

namespace CueSheet

/-- The greatest number of digits of a whole number that is read or written. -/
def digitLimit : Nat := 4300

/-- The digits of a natural number in base ten. -/
def natDigits (n : Nat) : List Char := Nat.toDigits 10 n

/-- Digits with the decimal point after the first `point` of them, and zeros where they run out. -/
def positional (digits : List Char) (point : Int) : List Char :=
  if point ≤ 0 then '0' :: '.' :: List.replicate (-point).toNat '0' ++ digits
  else
    let width := point.toNat
    let whole := digits.take width ++ List.replicate (width - digits.length) '0'
    let fraction := digits.drop width
    whole ++ '.' :: (if fraction.isEmpty then ['0'] else fraction)

/-- Digits as a number from one to ten next to a power of ten. -/
def scientific (digits : List Char) (power : Int) : List Char :=
  let mantissa :=
    match digits with
    | first :: second :: rest => first :: '.' :: second :: rest
    | digits => digits
  let magnitude := natDigits power.natAbs
  mantissa ++ 'e' :: (if power < 0 then '-' else '+') ::
    (List.replicate (2 - magnitude.length) '0' ++ magnitude)

/-- A positive decimal in writing. -/
def Decimal.write (d : Decimal) : List Char :=
  let digits := natDigits d.coefficient
  let point := d.exponent + digits.length
  if -4 < point ∧ point ≤ 16 then positional digits point else scientific digits (point - 1)

/-- A real number in writing. -/
def Extended.write : Extended → List Char
  | nan => "nan".toList
  | infinite negative => if negative then "-inf".toList else "inf".toList
  | negZero => "-0.0".toList
  | finite q =>
    if q = 0 then "0.0".toList
    else
      let digits := (Decimal.shortest q.num.natAbs q.den).write
      if q < 0 then '-' :: digits else digits

/-- A whole number in writing; a fault if it has more digits than are written. -/
def writeInt (n : Int) : Except Fault (List Char) :=
  let digits := natDigits n.natAbs
  if digitLimit < digits.length then .error .wholeTooLong
  else .ok (if n < 0 then '-' :: digits else digits)

/-- A quantity in writing. -/
def Number.write : Number → Except Fault (List Char)
  | int n => writeInt n
  | real x => .ok x.write
  | bool b => .ok (if b then "True".toList else "False".toList)

/-- A quantity in writing. -/
def Number.shown (x : Number) : Except Fault String := return String.ofList (← x.write)

end CueSheet
