import CueSheet.Numeric.Entry
import CueSheet.Value

/-!
# Arithmetic of values

Where a quantity is meant and another value stands, most operations are faults, and the fault tells
the kinds that do not fit. Multiplication repeats a text or a list as often as a whole number says,
and a text that is a number is read where a real number is asked for. Of quantities every operation
is that of numbers.
-/

namespace CueSheet.Value

/-- The quantity that a value is; a fault where another value is compared with a whole number. -/
def toNumber (comparison : Char) : Value → Except Fault Number
  | number x => .ok x
  | value => .error (.notOrdered comparison value.kind)

/-- The quantity that a value is, unless it is infinite or undefined; a fault if the value is none.
-/
def toFinite (ρ : Rounding) : Value → Except Fault (Option Number)
  | number x => do return if ← x.checkFinite ρ then some x else none
  | value => .error (.notNumeric value.kind)

/-- How often a text or a list is repeated that is multiplied by a value. -/
def repeats : Value → Except Fault Nat
  | number (.int n) =>
    if n < -(twoTo 63 : Int) ∨ (twoTo 63 : Int) ≤ n then .error .repeatsTooMany else .ok n.toNat
  | number (.bool b) => .ok (if b then 1 else 0)
  | value => .error (.notRepeatable value.kind)

/-- A list several times over; a fault if it grows beyond a billion elements. -/
def repeated {α : Type} (times : Nat) (xs : List α) : Except Fault (List α) :=
  if tenTo 9 < times * xs.length then .error .repeatsTooLong
  else if xs.isEmpty then .ok []
  else .ok (List.replicate times xs).flatten

/-- A text several times over. -/
def repeatText (s : String) (times : Nat) : Except Fault Value :=
  return text (String.ofList (← repeated times s.toList))

/-- A list several times over. -/
def repeatList (items : List Value) (times : Nat) : Except Fault Value :=
  return list (← repeated times items)

/-- The product of two values. If the left one can be repeated, the right one says how often. -/
def mul (ρ : Rounding) : Value → Value → Except Fault Value
  | number x, number y => return number (← x.mul ρ y)
  | text s, factor => do repeatText s (← factor.repeats)
  | list items, factor => do repeatList items (← factor.repeats)
  | factor, text s => do repeatText s (← factor.repeats)
  | factor, list items => do repeatList items (← factor.repeats)
  | value, factor => .error (.unsupported '*' value.kind factor.kind)

/-- The quotient of two values. -/
def div (ρ : Rounding) : Value → Value → Except Fault Number
  | number x, number y => x.div ρ y
  | value, divisor => .error (.unsupported '/' value.kind divisor.kind)

/-- The sum of a value and a real number. -/
def plus (ρ : Rounding) (value : Value) (x : Extended) : Except Fault Number :=
  match value with
  | number y => y.add ρ (.real x)
  | text _ | list _ => .error (.notJoined value.kind)
  | null | record _ => .error (.unsupported '+' value.kind .real)

/-- The real number that a value is or that a text spells. -/
def toReal (ρ : Rounding) : Value → Except Fault Extended
  | number x => x.toReal ρ
  | text s =>
    match Entry.real? s.toList with
    | some x => .ok x
    | none => .error (.notReal s)
  | value => .error (.notConvertible value.kind)

/-- A product of quantities is that of numbers. -/
theorem mul_number (ρ : Rounding) (x y : Number) :
    mul ρ (number x) (number y) = (x.mul ρ y).map number := by
  cases h : x.mul ρ y <;> simp [mul, h, Except.map, bind, Except.bind, pure, Except.pure]

/-- A quotient of quantities is that of numbers. -/
theorem div_number (ρ : Rounding) (x y : Number) : div ρ (number x) (number y) = x.div ρ y := rfl

end CueSheet.Value
