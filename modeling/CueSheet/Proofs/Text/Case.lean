import Mathlib.Data.List.Basic
import CueSheet.Text.Case

/-!
# Letter case of ASCII

On the letters of ASCII the lower-case form of a text is that of its letters, and so it is on the
long s, which is its own lower-case form.
-/

namespace CueSheet.Text

open Case (lowerFrom lowerLetter lowerRuns counterpart)

/-- A text of letters that have one lower-case letter each has these letters as its lower-case form,
unless there is a capital sigma in it. -/
theorem lowerFrom_eq_map {f : Char → Char} {text : List Char}
    (h : ∀ c ∈ text, c ≠ 'Σ' ∧ lowerLetter c = [f c]) (afterCased : Bool) :
    lowerFrom afterCased text = text.map f := by
  induction text generalizing afterCased with
  | nil => rfl
  | cons c text ih =>
    obtain ⟨hsigma, hletter⟩ := h c List.mem_cons_self
    rw [lowerFrom, if_neg hsigma, hletter, ih fun c hc => h c (List.mem_cons_of_mem _ hc)]
    rfl

/-- What holds of the characters of ASCII one by one holds of all of them. -/
theorem of_ascii {P : Char → Prop} (h : ∀ n < 128, P (Char.ofNat n)) {c : Char}
    (hc : c.toNat < 128) : P c := by
  rw [← Char.ofNat_toNat c]
  exact h _ hc

/-- A character of ASCII has its lower-case form of ASCII. -/
theorem lowerLetter_of_ascii {c : Char} (h : c.toNat < 128) : lowerLetter c = [c.toLower] :=
  of_ascii (P := fun c => lowerLetter c = [c.toLower]) (by decide +kernel) h

/-- The capital sigma is no character of ASCII. -/
theorem ne_sigma_of_ascii {c : Char} (h : c.toNat < 128) : c ≠ 'Σ' := by
  rintro rfl
  revert h
  decide

/-- A text of ASCII has its lower-case form of ASCII. -/
theorem lower_of_ascii {text : List Char} (h : ∀ c ∈ text, c.toNat < 128) :
    lower text = text.map Char.toLower :=
  lowerFrom_eq_map (fun c hc => ⟨ne_sigma_of_ascii (h c hc), lowerLetter_of_ascii (h c hc)⟩) false

/-- A character beyond ASCII has no lower-case form of ASCII. -/
theorem toLower_of_not_ascii {c : Char} (h : 128 ≤ c.toNat) : c.toLower = c := by
  unfold Char.toLower
  rw [dif_neg]
  rintro ⟨-, hle⟩
  have : c.toNat ≤ 90 := hle
  omega

end CueSheet.Text
