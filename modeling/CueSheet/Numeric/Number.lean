import CueSheet.Numeric.Extended

/-!
# Numbers

Numbers are whole numbers of any size or real numbers, and the two kinds stay apart: `4` and `4.0`
are equal as quantities and are written differently. A truth value counts as `0` or `1` where a
quantity is asked for. Order and equality compare the exact quantities and never round.
-/

namespace CueSheet

/-- A quantity. -/
inductive Number where
  /-- A whole number. -/
  | int (n : Int)
  /-- A real number, an infinity or the undefined value. -/
  | real (x : Extended)
  /-- A truth value, which counts as `0` or `1`. -/
  | bool (b : Bool)
deriving DecidableEq

instance : Inhabited Number := ⟨.int 0⟩

namespace Number

/-- The whole number of a quantity that is not real. -/
def whole? : Number → Option Int
  | int n => some n
  | real _ => none
  | bool b => some (if b then 1 else 0)

/-- The exact quantity. -/
def extended : Number → Extended
  | int n => .finite n
  | real x => x
  | bool b => .finite (if b then 1 else 0)

/-- The rational of a quantity that is neither infinite nor undefined. -/
def toRat? (x : Number) : Option Rat := x.extended.toRat?

/-- Whether a quantity is a number, whole or real, rather than a truth value. -/
def isNumeric : Number → Bool
  | int _ | real _ => true
  | bool _ => false

/-- Whether a quantity is neither infinite nor undefined. -/
def isFinite (x : Number) : Bool := x.extended.isFinite

/-- Whether one quantity is less than another. -/
def lt (x y : Number) : Bool := x.extended.compare? y.extended = some .lt

/-- Whether one quantity is at most another. -/
def le (x y : Number) : Bool :=
  x.extended.compare? y.extended = some .lt || x.extended.compare? y.extended = some .eq

/-- Whether two quantities are equal. -/
def eq (x y : Number) : Bool := x.extended.compare? y.extended = some .eq

/-- Whether a quantity is above zero. -/
def isPositive (x : Number) : Bool := lt (.int 0) x

/-- Whether a quantity is below zero. -/
def isNegative (x : Number) : Bool := lt x (.int 0)

/-- A real number that is whole becomes a whole number; other quantities stay as they are. -/
def normalize : Number → Number
  | real x =>
    match x.toRat? with
    | some q => if q.den = 1 then int q.num else real x
    | none => real x
  | x => x

end Number

end CueSheet
