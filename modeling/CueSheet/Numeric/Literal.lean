import CueSheet.Fault
import CueSheet.Numeric.Written
import CueSheet.Text.Blank
import CueSheet.Text.Digit

/-!
# Decimal literals

A decimal literal is one or more digits, optionally followed by a point and one or more digits; the
digits may be those of any script. It is the form of numbers in headers and of durations. Without a
point it is a whole number, and with one a real number, rounded once from its exact value.
-/

namespace CueSheet

open Text (isDigit digitValues ofDigits)

/-- The whole number that digits spell; a fault if there are more digits than are read. -/
def readDigits (digits : List Nat) : Except Fault Nat :=
  if digitLimit < digits.length then .error (.numeralTooLong digits.length)
  else .ok (ofDigits digits)

/-- The real number that digits spell, of which the last `places` stand after the point. -/
def Extended.ofDigits (ρ : Rounding) (digits : List Nat) (places : Nat) : Extended :=
  ρ (mkRat (Text.ofDigits digits) (tenTo places))

/-- The digits of a decimal literal. -/
structure Literal where
  /-- Values of the digits before the point. -/
  whole : List Nat
  /-- Values of the digits after the point; empty if there is no point. -/
  fraction : List Nat
deriving DecidableEq

namespace Literal

/-- The longest decimal literal at the start of a text, and the text after it. -/
def scan? (text : List Char) : Option (Literal × List Char) :=
  let whole := digitValues (text.takeWhile isDigit)
  let rest := text.dropWhile isDigit
  if whole.isEmpty then none
  else
    match rest with
    | '.' :: after =>
      let fraction := digitValues (after.takeWhile isDigit)
      if fraction.isEmpty then some (⟨whole, []⟩, rest)
      else some (⟨whole, fraction⟩, after.dropWhile isDigit)
    | _ => some (⟨whole, []⟩, rest)

/-- The decimal literal that a text is. -/
def ofText? (text : List Char) : Option Literal :=
  match scan? text with
  | some (literal, []) => some literal
  | _ => none

/-- The literal as a real number, infinite if it is beyond the real numbers that are kept. -/
def real (ρ : Rounding) (literal : Literal) : Extended :=
  .ofDigits ρ (literal.whole ++ literal.fraction) literal.fraction.length

/-- The literal as a whole number if it has no point, and as a real number otherwise. -/
def number (ρ : Rounding) (literal : Literal) : Except Fault Number :=
  if literal.fraction.isEmpty then return .int (← readDigits literal.whole)
  else return .real (literal.real ρ)

end Literal

end CueSheet
