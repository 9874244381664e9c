import Mathlib.Algebra.Order.Ring.Nat
import Mathlib.Data.List.Induction
import CueSheet.Numeric.Literal
import CueSheet.Proofs.Except

/-!
# How many digits a number has

A text of digits has as many values as characters, and the number that it spells has at most that
many digits in writing. So a number that is not too long to be read is not too long to be written.
-/

namespace CueSheet.Text

/-- Each digit of a text of digits has a value. -/
theorem length_digitValues {text : List Char} (h : ∀ c ∈ text, isDigit c = true) :
    (digitValues text).length = text.length := by
  induction text with
  | nil => rfl
  | cons c text ih =>
    obtain ⟨d, hd⟩ := Option.isSome_iff_exists.1 (h c List.mem_cons_self)
    rw [digitValues, List.filterMap_cons_some hd, List.length_cons, List.length_cons]
    exact congrArg (· + 1) (ih fun c hc => h c (List.mem_cons_of_mem _ hc))

/-- The values of digits are below ten. -/
theorem lt_of_mem_digitValues {text : List Char} {d : ℕ} (h : d ∈ digitValues text) : d < 10 := by
  obtain ⟨c, -, hc⟩ := List.mem_filterMap.1 h
  exact digitValue?_lt hc

/-- Digits after other digits add their own number at the end. -/
theorem ofDigits_concat (digits : List ℕ) (d : ℕ) :
    ofDigits (digits ++ [d]) = 10 * ofDigits digits + d := by
  rw [ofDigits, List.foldl_append]
  rfl

/-- A number of `n` digits is below `10 ^ n`. -/
theorem ofDigits_lt {digits : List ℕ} (h : ∀ d ∈ digits, d < 10) :
    ofDigits digits < 10 ^ digits.length := by
  induction digits using List.reverseRecOn with
  | nil => exact Nat.one_pos
  | append_singleton digits d ih =>
    have hd := h d (by simp)
    have hrest := ih fun d hd => h d (List.mem_append_left _ hd)
    rw [ofDigits_concat, List.length_append, List.length_singleton, pow_succ]
    omega

end CueSheet.Text

namespace CueSheet

/-- Reading digits fails exactly if there are too many. -/
theorem fails_readDigits_iff {digits : List ℕ} :
    Fails (readDigits digits) ↔ digitLimit < digits.length := by
  unfold readDigits
  split_ifs with h <;> simp [h]

/-- Digits that are not too many are read to the number that they spell. -/
theorem readDigits_of_le {digits : List ℕ} (h : digits.length ≤ digitLimit) :
    readDigits digits = .ok (Text.ofDigits digits) := if_neg (not_lt.2 h)

/-- What digits are read to is the number that they spell, and they are not too many. -/
theorem readDigits_eq_ok_iff {digits : List ℕ} {n : ℕ} :
    readDigits digits = .ok n ↔ digits.length ≤ digitLimit ∧ Text.ofDigits digits = n := by
  unfold readDigits
  split_ifs with h
  · simp [h]
  · simp [not_lt.1 h]

/-- Digits that are not too many spell a number with no more digits than are written. -/
theorem ofDigits_lt_of_le {digits : List ℕ} (hdigits : ∀ d ∈ digits, d < 10)
    (h : digits.length ≤ digitLimit) : Text.ofDigits digits < 10 ^ digitLimit :=
  lt_of_lt_of_le (Text.ofDigits_lt hdigits) (Nat.pow_le_pow_right (by decide) h)

/-- A text of digits that is read is a number with no more digits than are written. -/
theorem lt_of_readDigits {text : List Char} {n : ℕ}
    (h : readDigits (Text.digitValues text) = .ok n) : n < 10 ^ digitLimit := by
  obtain ⟨hlength, rfl⟩ := readDigits_eq_ok_iff.1 h
  exact ofDigits_lt_of_le (fun _ => Text.lt_of_mem_digitValues) hlength

end CueSheet
