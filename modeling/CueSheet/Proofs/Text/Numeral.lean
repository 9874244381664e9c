import CueSheet.Numeric.Written
import CueSheet.Proofs.Text.Digit

/-!
# Numerals in digits of ASCII

Numbers are written with the ten digits of ASCII and read with the digits of every script. A digit of
ASCII has its own value (`digitValue?_of_isDigit`), and the digits in which a natural number is
written spell that number (`ofDigits_natDigits`).
-/

namespace CueSheet.Text

/-- A digit of ASCII is read as its distance from zero. -/
theorem digitValue?_of_isDigit {c : Char} (h : c.isDigit = true) :
    digitValue? c = some (c.toNat - 48) := by
  have hbounds : 48 ≤ c.toNat ∧ c.toNat ≤ 57 := by
    simpa [Char.isDigit, UInt32.le_iff_toNat_le] using h
  have hnot : ¬c.toNat < 0x30 := by omega
  have hlt : c.toNat < 0x30 + 10 := by omega
  rw [digitValue?, zeroDigits, digitAmong?, if_neg hnot, if_pos hlt]

/-- A digit of ASCII is a digit. -/
theorem isDigit_of_isDigit {c : Char} (h : c.isDigit = true) : isDigit c = true := by
  rw [isDigit, digitValue?_of_isDigit h]
  rfl

/-- Digits of ASCII spell the number that they are. -/
theorem ofDigits_digitValues {text : List Char} (h : ∀ c ∈ text, c.isDigit = true) :
    ofDigits (digitValues text) = Nat.ofDigitChars 10 text 0 := by
  have hvalues : digitValues text = text.map fun c => c.toNat - 48 := by
    induction text with
    | nil => rfl
    | cons c text ih =>
      have hc := digitValue?_of_isDigit (h c List.mem_cons_self)
      rw [digitValues, List.filterMap_cons_some hc, List.map_cons]
      exact congrArg _ (ih fun c hc => h c (List.mem_cons_of_mem _ hc))
  rw [hvalues, ofDigits, List.foldl_map]
  rfl

end CueSheet.Text

namespace CueSheet

open Text (isDigit digitValues ofDigits)

/-- A natural number is written in digits of ASCII. -/
theorem isDigit_of_mem_natDigits {n : ℕ} {c : Char} (h : c ∈ natDigits n) : c.isDigit = true :=
  Nat.isDigit_of_mem_toDigits (by decide) (by decide) h

/-- A natural number has at least one digit. -/
theorem natDigits_ne_nil (n : ℕ) : natDigits n ≠ [] := Nat.toDigits_ne_nil

/-- The digits of a natural number, as characters, spell it. -/
theorem ofDigitChars_natDigits (n : ℕ) : Nat.ofDigitChars 10 (natDigits n) 0 = n :=
  Nat.ofDigitChars_ten_toDigits

/-- The digits of a natural number spell it. -/
theorem ofDigits_natDigits (n : ℕ) : ofDigits (digitValues (natDigits n)) = n := by
  rw [Text.ofDigits_digitValues fun c hc => isDigit_of_mem_natDigits hc, ofDigitChars_natDigits]

end CueSheet
