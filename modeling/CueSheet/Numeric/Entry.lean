import CueSheet.Numeric.Literal
import CueSheet.Text.Case

/-!
# Numbers as they are entered

Settings and options take numbers in a wider form than documents do: blanks around the number, a
sign, a low line between two digits, a power of ten, and words for infinity and the undefined value.
The digits may be those of any script. The four information separators do not count as blanks here.
-/

namespace CueSheet.Entry

open Text (isBlank digitValue? ofDigits)

/-- Whether a character may stand around a number. -/
def isPadding (c : Char) : Bool := isBlank c && !(0x1c ≤ c.toNat && c.toNat ≤ 0x1f)

/-- A character as numbers know it: a digit of any script becomes the digit of ASCII. -/
def plainDigit (c : Char) : Char :=
  match digitValue? c with
  | some d => Char.ofNat ('0'.toNat + d)
  | none => c

/-- The text of a number without the padding around it. -/
def unpadded (text : List Char) : List Char :=
  ((text.dropWhile isPadding).reverse.dropWhile isPadding).reverse

/-- The text of a number without the padding around it, in digits of ASCII. -/
def trimmed (text : List Char) : List Char := (unpadded text).map plainDigit

/-- The text without its low lines, if each of them stands between two digits. -/
def withoutLowLines? (afterDigit : Bool) : List Char → Option (List Char)
  | [] => some []
  | c :: rest =>
    if c = '_' then
      if afterDigit && (rest.head?.any Char.isDigit) then withoutLowLines? false rest else none
    else (withoutLowLines? c.isDigit rest).map (c :: ·)

/-- The sign at the start of a text, and the text after it. -/
def takeSign : List Char → Bool × List Char
  | '-' :: rest => (true, rest)
  | '+' :: rest => (false, rest)
  | text => (false, text)

/-- The digits of ASCII at the start of a text, and the text after them. -/
def takeDigits (text : List Char) : List Nat × List Char :=
  (Text.digitValues (text.takeWhile Char.isDigit), text.dropWhile Char.isDigit)

/-- The whole number that a text is; a fault if it starts with too many digits, none if it is no
whole number. -/
def whole? (text : List Char) : Option (Except Fault Int) :=
  let isNumeral := fun c => c.isDigit || c == '_'
  let (negative, unsigned) := takeSign (trimmed text)
  match withoutLowLines? false (unsigned.takeWhile isNumeral) with
  | none | some [] => none
  | some digits =>
    match readDigits (Text.digitValues digits) with
    | .error fault => some (.error fault)
    | .ok n =>
      if !(unsigned.dropWhile isNumeral).isEmpty then none
      else some (.ok (if negative then -(n : Int) else n))

/-- The power of ten at the end of a number; zero if there is none. -/
def exponent? : List Char → Option Int
  | [] => some 0
  | c :: rest =>
    if c = 'e' ∨ c = 'E' then
      let (negative, unsigned) := takeSign rest
      match takeDigits unsigned with
      | ([], _) => none
      | (digits, []) => some (if negative then -(ofDigits digits : Int) else ofDigits digits)
      | _ => none
    else none

/-- The binary64 number nearest to `ofDigits digits · 10 ^ power`. Powers so great or so small that
the result is an infinity or a zero in any case are not worked out. -/
def scaled (digits : List Nat) (power : Int) : Extended :=
  let digits := digits.dropWhile (· = 0)
  let magnitude := digits.length + power
  if digits.isEmpty ∨ magnitude < -400 then .finite 0
  else if 400 < magnitude then .infinite false
  else Rounding.binary64 (ofDigits digits * tenTo power.toNat / tenTo (-power).toNat)

/-- The magnitude that a text without sign is. -/
def magnitude? (text : List Char) : Option Extended :=
  let word := Text.lower text
  if word = "inf".toList ∨ word = "infinity".toList then some (.infinite false)
  else if word = "nan".toList then some .nan
  else
    let (whole, rest) := takeDigits text
    let (fraction, rest) :=
      match rest with
      | '.' :: after => takeDigits after
      | rest => ([], rest)
    if whole.isEmpty ∧ fraction.isEmpty then none
    else (exponent? rest).map fun power => scaled (whole ++ fraction) (power - fraction.length)

/-- The real number that a text without padding and low lines is. -/
def plainReal? (text : List Char) : Option Extended :=
  let (negative, unsigned) := takeSign text
  (magnitude? unsigned).map fun x => if negative then x.neg else x

/-- The real number that a text is. -/
def real? (text : List Char) : Option Extended :=
  (withoutLowLines? false (trimmed text)).bind plainReal?

end CueSheet.Entry
