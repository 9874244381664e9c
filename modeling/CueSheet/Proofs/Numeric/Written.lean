import Mathlib.Data.List.TakeWhile
import Mathlib.Tactic.Ring
import CueSheet.Proofs.Numeric.Order
import CueSheet.Proofs.Numeric.Shortest
import CueSheet.Proofs.Text.Numeral

/-!
# Written numbers are read back

A real number that is written without a power of ten is written as digits, a point and digits, and
these digits spell it (`Extended.spellsReal_write`). The digits are scanned as a literal up to what
follows them (`Literal.scan?_point`, and `Literal.scan?_whole` for whole numbers).
-/

namespace CueSheet

open Text (isDigit digitValues ofDigits)

/-- A text is digits, a point and digits, which are read as a real number. -/
def SpellsReal (x : Extended) (text : List Char) : Prop :=
  ∃ whole fraction, text = whole ++ '.' :: fraction ∧ whole ≠ [] ∧ fraction ≠ [] ∧
    (∀ c ∈ whole ++ fraction, c.isDigit = true) ∧
    Extended.ofDigits .binary64 (digitValues (whole ++ fraction)) fraction.length = x

/-! ## Decimals around their point -/

namespace Decimal

/-- Digits and a number of digits after the point make up a decimal. -/
def Spells (d : Decimal) (whole fraction : List Char) : Prop :=
  (∀ c ∈ whole ++ fraction, c.isDigit = true) ∧ whole ≠ [] ∧ fraction ≠ [] ∧
    mkRat (ofDigits (digitValues (whole ++ fraction))) (tenTo fraction.length) = d.toRat

/-- Digits spell a decimal if they spell its coefficient with as many zeros as are missing. -/
theorem spells_of_zeros {d : Decimal} {whole fraction : List Char} (zeros : ℕ)
    (hdigits : ∀ c ∈ whole ++ fraction, c.isDigit = true) (hwhole : whole ≠ [])
    (hfraction : fraction ≠ [])
    (hvalue : Nat.ofDigitChars 10 (whole ++ fraction) 0 = d.coefficient * 10 ^ zeros)
    (hplaces : d.exponent = zeros - fraction.length) : d.Spells whole fraction := by
  refine ⟨hdigits, hwhole, hfraction, ?_⟩
  have hpow : (10 : ℚ) ^ d.exponent = 10 ^ zeros / 10 ^ fraction.length := by
    rw [hplaces, zpow_sub₀ (by norm_num), zpow_natCast, zpow_natCast]
  rw [Text.ofDigits_digitValues hdigits, hvalue, toRat_eq, hpow, Rat.mkRat_eq_div, tenTo_eq]
  push_cast
  ring

/-- Digits with zeros beside them are digits. -/
theorem isDigit_of_mem_padded {n places : ℕ} {c : Char}
    (h : c ∈ natDigits n ∨ c ∈ List.replicate places '0' ∨ c = '0') : c.isDigit = true := by
  rcases h with hdigit | hzero | rfl
  · exact isDigit_of_mem_natDigits hdigit
  · exact List.eq_of_mem_replicate hzero ▸ rfl
  · rfl

section Point

variable {d : Decimal} {point : ℤ} (hpoint : d.exponent = point - (natDigits d.coefficient).length)

include hpoint

/-- A point in front of all digits stands between a zero and more zeros. -/
theorem spells_before (h : point ≤ 0) :
    d.Spells ['0'] (List.replicate (-point).toNat '0' ++ natDigits d.coefficient) := by
  refine spells_of_zeros 0 (fun c hc => ?_) (by simp) (by simp [natDigits_ne_nil]) ?_ ?_
  · simp only [List.mem_append, List.mem_singleton] at hc
    exact isDigit_of_mem_padded (by tauto)
  · rw [Nat.ofDigitChars_append, Nat.ofDigitChars_append, Nat.ofDigitChars_replicate_zero,
      show Nat.ofDigitChars 10 ['0'] 0 = 0 from rfl, mul_zero, ofDigitChars_natDigits, pow_zero,
      mul_one]
  · rw [List.length_append, List.length_replicate]
    omega

/-- A point between two digits. -/
theorem spells_within (hpos : 0 < point) (hlt : point.toNat < (natDigits d.coefficient).length) :
    d.Spells ((natDigits d.coefficient).take point.toNat)
      ((natDigits d.coefficient).drop point.toNat) := by
  have htake : (natDigits d.coefficient).take point.toNat ≠ [] := by
    simp [natDigits_ne_nil]
    omega
  have hdrop : (natDigits d.coefficient).drop point.toNat ≠ [] := by
    simp
    omega
  refine spells_of_zeros 0 ?_ htake hdrop ?_ ?_
  · rw [List.take_append_drop]
    exact fun c hc => isDigit_of_mem_natDigits hc
  · rw [List.take_append_drop, ofDigitChars_natDigits, pow_zero, mul_one]
  · rw [List.length_drop]
    omega

/-- A point behind all digits stands between zeros and one more zero. -/
theorem spells_behind (hge : (natDigits d.coefficient).length ≤ point.toNat) (hpos : 0 < point) :
    d.Spells (natDigits d.coefficient ++
      List.replicate (point.toNat - (natDigits d.coefficient).length) '0') ['0'] := by
  refine spells_of_zeros (point.toNat - (natDigits d.coefficient).length + 1) (fun c hc => ?_)
    (by simp [natDigits_ne_nil]) (by simp) ?_ ?_
  · simp only [List.mem_append, List.mem_singleton, or_assoc] at hc
    exact isDigit_of_mem_padded hc
  · rw [Nat.ofDigitChars_append, Nat.ofDigitChars_append, ofDigitChars_natDigits,
      Nat.ofDigitChars_replicate_zero]
    simp [Nat.ofDigitChars, pow_succ]
    ring
  · rw [List.length_singleton]
    push_cast
    omega

end Point

/-- The digits of a decimal with the point among them or around them. -/
theorem exists_positional (d : Decimal) {point : ℤ}
    (hpoint : d.exponent = point - (natDigits d.coefficient).length) :
    ∃ whole fraction, positional (natDigits d.coefficient) point = whole ++ '.' :: fraction ∧
      d.Spells whole fraction := by
  unfold positional
  split_ifs with h
  · exact ⟨_, _, rfl, spells_before hpoint h⟩
  have hpos : 0 < point := not_le.1 h
  dsimp only
  rcases lt_or_ge point.toNat (natDigits d.coefficient).length with hlt | hge
  · have hspells := spells_within hpoint hpos hlt
    refine ⟨_, _, ?_, hspells⟩
    rw [Nat.sub_eq_zero_of_le hlt.le, List.replicate_zero, List.append_nil,
      List.isEmpty_eq_false_iff.2 hspells.2.2.1]
    rfl
  · refine ⟨_, _, ?_, spells_behind hpoint hge hpos⟩
    rw [List.take_of_length_le hge, List.drop_of_length_le hge]
    rfl

/-- A decimal that is written without a power of ten is written around its point. -/
theorem exists_spells_of_write {d : Decimal} (h : 'e' ∉ d.write) :
    ∃ whole fraction, d.write = whole ++ '.' :: fraction ∧ d.Spells whole fraction := by
  unfold write at h ⊢
  dsimp only at h ⊢
  split_ifs at h ⊢
  · exact exists_positional d (by omega)
  · exact absurd (by simp [scientific]) h

end Decimal

namespace Extended

/-- A binary64 number of at least zero that is written without a power of ten is digits, a point and
digits. -/
theorem spellsReal_write {q : ℚ} (hq : 0 ≤ q) (hbinary : (finite q).IsBinary64)
    (h : 'e' ∉ (finite q).write) : SpellsReal (finite q) (finite q).write := by
  rcases eq_or_lt_of_le hq with rfl | hpos
  · exact ⟨['0'], ['0'], rfl, by simp, by simp, by simp, by decide +kernel⟩
  obtain ⟨hgrid, hlt⟩ := hbinary
  rw [abs_of_pos hpos] at hgrid hlt
  have hwrite : (finite q).write = (Decimal.shortest q.num.natAbs q.den).write := by
    simp [write, hpos.ne', not_lt.2 hq]
  have hreads := Decimal.nearest_shortest hgrid hpos hlt
  rw [hwrite] at h ⊢
  obtain ⟨whole, fraction, htext, hdigits, hwhole, hfraction, hvalue⟩ :=
    Decimal.exists_spells_of_write h
  refine ⟨whole, fraction, htext, hwhole, hfraction, hdigits, ?_⟩
  have hnonneg := Decimal.toRat_nonneg (Decimal.shortest q.num.natAbs q.den)
  -- The decimal is so near to a number below the limit that it is not rounded to an infinity.
  have hsmall : ¬overflowAt ≤ (Decimal.shortest q.num.natAbs q.den).toRat := by
    rw [← magnitudeLimit_le_nearest_iff hnonneg, hreads]
    exact not_le.2 hlt
  rw [Extended.ofDigits, hvalue, binary64_eq, abs_of_nonneg hnonneg, if_neg hsmall,
    unlimited_of_nonneg hnonneg, hreads]

end Extended

/-! ## Scanning literals -/

/-- A text of digits of ASCII is one of digits. -/
theorem isDigit_of_ascii {text : List Char} (h : ∀ c ∈ text, c.isDigit = true) :
    ∀ c ∈ text, isDigit c = true := fun c hc => Text.isDigit_of_isDigit (h c hc)

/-- The digits at the start of a text end where no digit follows. -/
theorem takeWhile_isDigit_append {digits rest : List Char}
    (hdigits : ∀ c ∈ digits, isDigit c = true) (hrest : ∀ c ∈ rest.head?, isDigit c = false) :
    (digits ++ rest).takeWhile isDigit = digits ∧ (digits ++ rest).dropWhile isDigit = rest := by
  have hstop : rest.takeWhile isDigit = [] ∧ rest.dropWhile isDigit = rest := by
    cases rest with
    | nil => exact ⟨rfl, rfl⟩
    | cons c rest =>
      have hc := hrest c rfl
      exact ⟨List.takeWhile_cons_of_neg (by simp [hc]), List.dropWhile_cons_of_neg (by simp [hc])⟩
  rw [List.takeWhile_append_of_pos hdigits, List.dropWhile_append_of_pos hdigits, hstop.1, hstop.2,
    List.append_nil]
  exact ⟨rfl, rfl⟩

/-- Digits have values. -/
theorem digitValues_ne_nil {digits : List Char} (hne : digits ≠ [])
    (hdigits : ∀ c ∈ digits, isDigit c = true) : digitValues digits ≠ [] := by
  rw [← List.length_pos_iff, Text.length_digitValues hdigits]
  exact List.length_pos_iff.2 hne

namespace Literal

/-- Digits that neither a digit nor a point follows are scanned as a whole number. -/
theorem scan?_whole {digits rest : List Char} (hne : digits ≠ [])
    (hdigits : ∀ c ∈ digits, isDigit c = true)
    (hrest : ∀ c ∈ rest.head?, isDigit c = false ∧ c ≠ '.') :
    scan? (digits ++ rest) = some (⟨digitValues digits, []⟩, rest) := by
  obtain ⟨htake, hdrop⟩ := takeWhile_isDigit_append hdigits fun c hc => (hrest c hc).1
  have hvalues := digitValues_ne_nil hne hdigits
  unfold scan?
  rw [htake, hdrop]
  dsimp only
  rw [List.isEmpty_eq_false_iff.2 hvalues]
  cases rest with
  | nil => rfl
  | cons c rest =>
    have hc := (hrest c rfl).2
    split
    · next heq => cases heq
    · split
      · next after heq => exact absurd (List.cons.inj heq).1 hc
      · rfl

/-- Digits, a point and digits that no digit follows are scanned as a real number. -/
theorem scan?_point {whole fraction rest : List Char} (hwhole : whole ≠ [])
    (hfraction : fraction ≠ []) (hdigits : ∀ c ∈ whole ++ fraction, isDigit c = true)
    (hrest : ∀ c ∈ rest.head?, isDigit c = false) :
    scan? (whole ++ '.' :: (fraction ++ rest)) =
      some (⟨digitValues whole, digitValues fraction⟩, rest) := by
  obtain ⟨hdigits₁, hdigits₂⟩ := List.forall_mem_append.1 hdigits
  have hpoint : ∀ c ∈ ('.' :: (fraction ++ rest)).head?, isDigit c = false := by
    simp
    decide
  obtain ⟨htake, hdrop⟩ := takeWhile_isDigit_append hdigits₁ hpoint
  obtain ⟨htake₂, hdrop₂⟩ := takeWhile_isDigit_append hdigits₂ hrest
  have hvalues := digitValues_ne_nil hwhole hdigits₁
  have hvalues₂ := digitValues_ne_nil hfraction hdigits₂
  unfold scan?
  rw [htake, hdrop]
  simp only [htake₂, hdrop₂, List.isEmpty_eq_false_iff.2 hvalues,
    List.isEmpty_eq_false_iff.2 hvalues₂, Bool.false_eq_true, if_false]

end Literal

/-! ## The characters of written numbers -/

/-- Whether a character may stand in a written number. -/
def isNumeralChar (c : Char) : Bool := c.isAlphanum || c == '.' || c == '-' || c == '+'

/-- The characters of written numbers are those of ASCII. -/
theorem lt_of_isNumeralChar {c : Char} (h : isNumeralChar c = true) : c.toNat < 128 := by
  have hranges : c.isAlphanum = true ∨ c = '.' ∨ c = '-' ∨ c = '+' := by
    simpa [isNumeralChar, or_assoc] using h
  rcases hranges with halnum | rfl | rfl | rfl
  · have hbound {bound : UInt32} (hle : c.val ≤ bound) (hbound : bound.toNat < 128) :
        c.toNat < 128 := (UInt32.le_iff_toNat_le.1 hle).trans_lt hbound
    obtain hletter | hdigit := Bool.or_eq_true_iff.1 halnum
    · obtain hupper | hlower := Bool.or_eq_true_iff.1 hletter
      · exact hbound (of_decide_eq_true hupper).2 (by decide)
      · exact hbound (of_decide_eq_true (Bool.and_eq_true_iff.1 hlower).2) (by decide)
    · exact hbound (of_decide_eq_true (Bool.and_eq_true_iff.1 hdigit).2) (by decide)
  · decide
  · decide
  · decide

/-- What holds of the characters of written numbers holds of them one by one. -/
theorem of_isNumeralChar {P : Char → Prop}
    (h : ∀ n < 128, isNumeralChar (Char.ofNat n) = true → P (Char.ofNat n)) {c : Char}
    (hc : isNumeralChar c = true) : P c := by
  have hascii := h c.toNat (lt_of_isNumeralChar hc)
  rw [Char.ofNat_toNat] at hascii
  exact hascii hc

/-- A digit may stand in a written number. -/
theorem isNumeralChar_of_isDigit {c : Char} (h : c.isDigit = true) : isNumeralChar c = true := by
  simp [isNumeralChar, Char.isAlphanum, h]

/-- All digits of a natural number may stand in a written number. -/
theorem isNumeralChar_of_mem_natDigits {n : ℕ} {c : Char} (h : c ∈ natDigits n) :
    isNumeralChar c = true :=
  isNumeralChar_of_isDigit (isDigit_of_mem_natDigits h)

/-- What stands in a number next to a power of ten. -/
theorem mem_scientific {digits : List Char} {power : ℤ} {c : Char}
    (h : c ∈ scientific digits power) :
    c ∈ digits ∨ c ∈ natDigits power.natAbs ∨ c ∈ ".e+-0".toList := by
  have hsign : (if power < 0 then '-' else '+') ∈ ".e+-0".toList := by split <;> decide
  unfold scientific at h
  dsimp only at h
  simp only [List.mem_append, List.mem_cons, List.mem_replicate] at h
  rcases h with h | rfl | rfl | ⟨-, rfl⟩ | h
  · split at h
    · rw [List.mem_cons, List.mem_cons] at h
      rcases h with rfl | rfl | h
      · exact .inl List.mem_cons_self
      · exact .inr (.inr (by decide))
      · exact .inl (List.mem_cons_of_mem _ h)
    · exact .inl h
  · exact .inr (.inr (by decide))
  · exact .inr (.inr hsign)
  · exact .inr (.inr (by decide))
  · exact .inr (.inl h)

/-- The first digit stands in a number next to a power of ten. -/
theorem head_mem_scientific (first : Char) (rest : List Char) (power : ℤ) :
    first ∈ scientific (first :: rest) power := by
  unfold scientific
  cases rest <;> simp

/-- A decimal is written in characters of written numbers. -/
theorem Decimal.isNumeralChar_of_mem_write {d : Decimal} {c : Char} (h : c ∈ d.write) :
    isNumeralChar c = true := by
  unfold write at h
  dsimp only at h
  split_ifs at h
  · obtain ⟨whole, fraction, htext, hdigits, -⟩ :=
      exists_positional d (add_sub_cancel_right d.exponent _).symm
    rw [htext, List.mem_append, List.mem_cons] at h
    rcases h with h | rfl | h
    · exact isNumeralChar_of_isDigit (hdigits c (List.mem_append_left _ h))
    · rfl
    · exact isNumeralChar_of_isDigit (hdigits c (List.mem_append_right _ h))
  · rcases mem_scientific h with h | h | h
    · exact isNumeralChar_of_mem_natDigits h
    · exact isNumeralChar_of_mem_natDigits h
    · have hsigns : ∀ c ∈ ".e+-0".toList, isNumeralChar c = true :=
        List.all_eq_true.1 (by decide)
      exact hsigns c h

/-- A decimal is written with a digit. -/
theorem Decimal.exists_digit_mem_write (d : Decimal) : ∃ c ∈ d.write, c.isDigit = true := by
  unfold write
  dsimp only
  split_ifs
  · obtain ⟨whole, fraction, htext, hdigits, hwhole, -⟩ :=
      exists_positional d (add_sub_cancel_right d.exponent _).symm
    obtain ⟨c, hc⟩ := List.exists_mem_of_ne_nil whole hwhole
    rw [htext]
    exact ⟨c, List.mem_append_left _ hc, hdigits c (List.mem_append_left _ hc)⟩
  · obtain ⟨first, rest, hdigits⟩ := List.exists_cons_of_ne_nil (natDigits_ne_nil d.coefficient)
    have hfirst : first ∈ natDigits d.coefficient := hdigits ▸ List.mem_cons_self
    rw [hdigits]
    exact ⟨first, head_mem_scientific first rest _, isDigit_of_mem_natDigits hfirst⟩

/-- A real number is written in characters of written numbers. -/
theorem Extended.isNumeralChar_of_mem_write {x : Extended} {c : Char} (h : c ∈ x.write) :
    isNumeralChar c = true := by
  have hword {word : List Char} (hall : word.all isNumeralChar = true) (hc : c ∈ word) :
      isNumeralChar c = true := List.all_eq_true.1 hall c hc
  cases x with
  | nan => exact hword (by decide) h
  | negZero => exact hword (by decide) h
  | infinite negative => cases negative <;> exact hword (by decide) h
  | finite q =>
    unfold write at h
    dsimp only at h
    split_ifs at h
    · exact hword (by decide) h
    · rcases List.mem_cons.1 h with rfl | h
      · rfl
      · exact Decimal.isNumeralChar_of_mem_write h
    · exact Decimal.isNumeralChar_of_mem_write h

/-- A finite real number is written with a digit. -/
theorem Extended.exists_digit_mem_write {x : Extended} (h : x.isFinite = true) :
    ∃ c ∈ x.write, c.isDigit = true := by
  cases x with
  | nan | infinite => cases h
  | negZero => exact ⟨'0', by decide, rfl⟩
  | finite q =>
    unfold write
    dsimp only
    obtain ⟨c, hc, hdigit⟩ := (Decimal.shortest q.num.natAbs q.den).exists_digit_mem_write
    split_ifs
    · exact ⟨'0', by decide, rfl⟩
    · exact ⟨c, List.mem_cons_of_mem _ hc, hdigit⟩
    · exact ⟨c, hc, hdigit⟩

/-- A whole number is its digits, behind a sign if it is below zero. -/
theorem writeInt_eq_ok_iff {n : ℤ} {text : List Char} :
    writeInt n = .ok text ↔ (natDigits n.natAbs).length ≤ digitLimit ∧
      text = if n < 0 then '-' :: natDigits n.natAbs else natDigits n.natAbs := by
  unfold writeInt
  dsimp only
  by_cases h : digitLimit < (natDigits n.natAbs).length
  · rw [if_pos h]
    simp [not_le.2 h]
  · rw [if_neg h, Except.ok.injEq, eq_comm, and_iff_right (not_lt.1 h)]

/-- A number other than a truth value is written in characters of written numbers. -/
theorem Number.isNumeralChar_of_mem_write {x : Number} {text : List Char}
    (h : x.write = .ok text) (hnumeric : x.isNumeric = true) {c : Char} (hc : c ∈ text) :
    isNumeralChar c = true := by
  cases x with
  | bool => cases hnumeric
  | real x =>
    obtain rfl := Except.ok.inj h
    exact Extended.isNumeralChar_of_mem_write hc
  | int n =>
    obtain ⟨-, rfl⟩ := writeInt_eq_ok_iff.1 h
    split_ifs at hc
    · rcases List.mem_cons.1 hc with rfl | hc
      · rfl
      · exact isNumeralChar_of_mem_natDigits hc
    · exact isNumeralChar_of_mem_natDigits hc

end CueSheet
