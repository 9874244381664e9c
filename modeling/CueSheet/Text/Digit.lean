/-!
# Decimal digits

Every script has its own ten decimal digits, which stand together in code point order. A digit of
any script is read as its value; numbers are always written with the ten digits of ASCII.
-/

namespace CueSheet.Text

/-- The digit zero of every script, in code point order. -/
def zeroDigits : List Nat := [
  0x30, 0x660, 0x6f0, 0x7c0, 0x966, 0x9e6, 0xa66, 0xae6, 0xb66, 0xbe6, 0xc66, 0xce6, 0xd66, 0xde6,
  0xe50, 0xed0, 0xf20, 0x1040, 0x1090, 0x17e0, 0x1810, 0x1946, 0x19d0, 0x1a80, 0x1a90, 0x1b50,
  0x1bb0, 0x1c40, 0x1c50, 0xa620, 0xa8d0, 0xa900, 0xa9d0, 0xa9f0, 0xaa50, 0xabf0, 0xff10, 0x104a0,
  0x10d30, 0x11066, 0x110f0, 0x11136, 0x111d0, 0x112f0, 0x11450, 0x114d0, 0x11650, 0x116c0,
  0x11730, 0x118e0, 0x11950, 0x11c50, 0x11d50, 0x11da0, 0x16a60, 0x16ac0, 0x16b50, 0x1d7ce,
  0x1d7d8, 0x1d7e2, 0x1d7ec, 0x1d7f6, 0x1e140, 0x1e2f0, 0x1e950, 0x1fbf0]

/-- The value of a code point among the ten digits that start at one of the given zeros. -/
def digitAmong? : List Nat → Nat → Option Nat
  | [], _ => none
  | first :: rest, n =>
    if n < first then none else if n < first + 10 then some (n - first) else digitAmong? rest n

/-- The value of a decimal digit of any script. -/
def digitValue? (c : Char) : Option Nat := digitAmong? zeroDigits c.toNat

/-- Whether a character is a decimal digit of some script. -/
def isDigit (c : Char) : Bool := (digitValue? c).isSome

/-- The values of the decimal digits in a text; other characters have none. -/
def digitValues (text : List Char) : List Nat := text.filterMap digitValue?

/-- The number that a list of digits spells in base ten. -/
def ofDigits (digits : List Nat) : Nat := digits.foldl (fun n d => 10 * n + d) 0

/-- The value of a digit is below ten. -/
theorem digitAmong?_lt {zeros : List Nat} {n d : Nat} (h : digitAmong? zeros n = some d) :
    d < 10 := by
  induction zeros with
  | nil => simp [digitAmong?] at h
  | cons first rest ih =>
    rw [digitAmong?] at h
    split at h
    · simp at h
    · split at h
      · simp only [Option.some.injEq] at h
        omega
      · exact ih h

/-- The value of a digit is below ten. -/
theorem digitValue?_lt {c : Char} {d : Nat} (h : digitValue? c = some d) : d < 10 :=
  digitAmong?_lt h

/-- The ten digits of ASCII have the values that they are read with. -/
example : "0123456789".toList.map digitValue? = (List.range 10).map some := by decide

end CueSheet.Text
