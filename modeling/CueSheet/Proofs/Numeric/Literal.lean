import CueSheet.Proofs.Numeric.Written

/-!
# Decimal literals and the numbers that they are

A decimal literal is digits, or digits, a point and digits (`Literal.IsSpelled`), and these are
exactly the texts that are read as one (`Literal.ofText?_eq_some_iff`). A literal has an exact
rational. If it is below `overflowAt`, then the literal is a number (`IsDecimal`): a whole number
without a point, and the binary64 number nearest to the rational with one.
-/

namespace CueSheet

open Text (isDigit digitValues ofDigits)

namespace Literal

variable {text rest : List Char} {literal : Literal}

/-- A text is the literal: digits, or digits, a point and digits. -/
inductive IsSpelled : List Char → Literal → Prop where
  /-- There are digits alone. -/
  | whole {digits : List Char} (hne : digits ≠ []) (hdigits : ∀ c ∈ digits, isDigit c = true) :
    IsSpelled digits ⟨digitValues digits, []⟩
  /-- There are digits around a point. -/
  | point {whole fraction : List Char} (hwhole : whole ≠ []) (hfraction : fraction ≠ [])
    (hdigits : ∀ c ∈ whole ++ fraction, isDigit c = true) :
    IsSpelled (whole ++ '.' :: fraction) ⟨digitValues whole, digitValues fraction⟩

/-- The characters of a literal are digits and points. -/
theorem IsSpelled.isDigit_or (h : IsSpelled text literal) :
    ∀ c ∈ text, isDigit c = true ∨ c = '.' := by
  intro c hc
  cases h with
  | whole _ hdigits => exact .inl (hdigits c hc)
  | point _ _ hdigits =>
    rcases List.mem_append.1 hc with hc | hc
    · exact .inl (hdigits c (List.mem_append_left _ hc))
    · rcases List.mem_cons.1 hc with rfl | hc
      · exact .inr rfl
      · exact .inl (hdigits c (List.mem_append_right _ hc))

/-- A literal is scanned up to what follows it. -/
theorem IsSpelled.scan? (h : IsSpelled text literal)
    (hrest : ∀ c ∈ rest.head?, isDigit c = false ∧ c ≠ '.') :
    Literal.scan? (text ++ rest) = some (literal, rest) := by
  cases h with
  | whole hne hdigits => exact scan?_whole hne hdigits hrest
  | point hwhole hfraction hdigits =>
    rw [List.append_assoc, List.cons_append]
    exact scan?_point hwhole hfraction hdigits fun c hc => (hrest c hc).1

/-- The digits at the start of a text are digits. -/
theorem isDigit_of_mem_takeWhile {c : Char} (h : c ∈ text.takeWhile isDigit) : isDigit c = true :=
  List.mem_takeWhile_imp h

/-- There are digits where there are values of digits. -/
theorem ne_nil_of_digitValues {digits : List Char} (h : ¬(digitValues digits).isEmpty = true) :
    digits ≠ [] := by
  rintro rfl
  exact h rfl

/-- What is scanned in front of the rest of a text is the literal. -/
theorem exists_isSpelled_of_scan? (h : Literal.scan? text = some (literal, rest)) :
    ∃ front, text = front ++ rest ∧ IsSpelled front literal := by
  have hsplit := List.takeWhile_append_dropWhile (p := isDigit) (l := text)
  unfold Literal.scan? at h
  dsimp only at h
  split at h
  · cases h
  next hwhole =>
    have hspelled : IsSpelled (text.takeWhile isDigit) ⟨digitValues (text.takeWhile isDigit), []⟩ :=
      .whole (ne_nil_of_digitValues hwhole) fun c => isDigit_of_mem_takeWhile
    split at h
    · next after hafter =>
      split at h
      · -- A point without digits behind it belongs to what follows.
        obtain ⟨rfl, rfl⟩ := Prod.mk.inj (Option.some.inj h)
        exact ⟨_, hsplit.symm, hspelled⟩
      · next hfraction =>
        obtain ⟨rfl, rfl⟩ := Prod.mk.inj (Option.some.inj h)
        refine ⟨text.takeWhile isDigit ++ '.' :: after.takeWhile isDigit, ?_,
          .point (ne_nil_of_digitValues hwhole) (ne_nil_of_digitValues hfraction) ?_⟩
        · rw [List.append_assoc, List.cons_append, List.takeWhile_append_dropWhile, ← hafter, hsplit]
        · exact List.forall_mem_append.2
            ⟨fun c => isDigit_of_mem_takeWhile, fun c => isDigit_of_mem_takeWhile⟩
    · obtain ⟨rfl, rfl⟩ := Prod.mk.inj (Option.some.inj h)
      exact ⟨_, hsplit.symm, hspelled⟩

/-- A text is read as the literal that it is. -/
theorem ofText?_eq_some_iff : Literal.ofText? text = some literal ↔ IsSpelled text literal := by
  unfold Literal.ofText?
  constructor
  · intro h
    split at h
    · next hscan =>
      obtain rfl := Option.some.inj h
      obtain ⟨front, rfl, hspelled⟩ := exists_isSpelled_of_scan? hscan
      rwa [List.append_nil]
    · cases h
  · intro h
    have hscan : Literal.scan? (text ++ []) = some (literal, []) := h.scan? nofun
    rw [List.append_nil] at hscan
    rw [hscan]

/-! ## The numbers of literals -/

/-- The exact rational of a literal. -/
def rational (literal : Literal) : ℚ :=
  ofDigits (literal.whole ++ literal.fraction) / 10 ^ literal.fraction.length

/-- The number of a literal: a whole number if it has no point, and the nearest binary64 number
otherwise. -/
def value (literal : Literal) : Number :=
  if literal.fraction = [] then .int (ofDigits literal.whole)
  else .real (.finite (nearest literal.rational))

/-- The rational of a literal is at least zero. -/
theorem rational_nonneg (literal : Literal) : 0 ≤ literal.rational := by
  unfold rational
  positivity

/-- As a real number a literal is its rational, rounded. -/
theorem real_eq (ρ : Rounding) (literal : Literal) : literal.real ρ = ρ literal.rational := by
  rw [real, Extended.ofDigits, Rat.mkRat_eq_div, tenTo_eq, rational]
  push_cast
  rfl

/-- A literal is finite as a real number exactly below `overflowAt`. -/
theorem isFinite_real_iff :
    (literal.real .binary64).isFinite = true ↔ literal.rational < overflowAt := by
  rw [real_eq, isFinite_binary64_iff, abs_of_nonneg literal.rational_nonneg]

/-- A literal below `overflowAt` is read as its number, if it is read. -/
theorem eq_value_of_number {x : Number} (hlimit : literal.rational < overflowAt)
    (h : literal.number .binary64 = .ok x) : x = literal.value := by
  have hnonneg := literal.rational_nonneg
  unfold number at h
  unfold value
  by_cases hfraction : literal.fraction = []
  · rw [if_pos (List.isEmpty_iff.2 hfraction)] at h
    obtain ⟨n, hn, h⟩ := bind_eq_ok.1 h
    obtain ⟨-, rfl⟩ := readDigits_eq_ok_iff.1 hn
    rw [if_pos hfraction]
    exact (pure_eq_ok_iff.1 h).symm
  · rw [if_neg (List.isEmpty_iff.not.2 hfraction), real_eq, binary64_eq, abs_of_nonneg hnonneg,
      if_neg (not_le.2 hlimit), unlimited_of_nonneg hnonneg] at h
    rw [if_neg hfraction]
    exact (pure_eq_ok_iff.1 h).symm

end Literal

/-- A text is a decimal literal below `overflowAt`, and a number is that of the literal. -/
def IsDecimal (text : List Char) (x : Number) : Prop :=
  ∃ literal, Literal.IsSpelled text literal ∧ literal.rational < overflowAt ∧ x = literal.value

end CueSheet
