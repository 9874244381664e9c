import CueSheet.Proofs.Cue.Stumble
import CueSheet.Proofs.Numeric.Order

/-!
# The values of a cue that is read

A cue that is read from a document holds texts and quantities only, its whole numbers have no more
digits than are written, and its real numbers are those of binary64 (`Cue.isPlain_of_read`).
-/

namespace CueSheet

open Text (digitValues)

/-- A quantity can stand in a document. -/
structure Number.IsPlain (x : Number) : Prop where
  /-- A whole number has no more digits than are written. -/
  writable : x.IsWritable
  /-- A real number is one of binary64. -/
  binary64 : ∀ y, x = .real y → y.IsBinary64

/-- A value can stand in a document: it is a text or a quantity that can. -/
def Value.IsPlain : Value → Prop
  | .number x => x.IsPlain
  | .text _ => True
  | .null | .list _ | .record _ => False

/-- The parameters of a cue can stand in a document. -/
def Cue.IsPlain (cue : Cue) : Prop := ∀ param ∈ cue.params, param.2.IsPlain

/-- A value is a text, or a quantity that can be read as a real number of binary64. -/
def Value.IsKept : Value → Prop
  | .number x => x.IsKept
  | .text _ => True
  | .null | .list _ | .record _ => False

/-- A real number of binary64 can stand in a document. -/
theorem Number.isPlain_real {x : Extended} (h : x.IsBinary64) : (real x).IsPlain := by
  refine ⟨nofun, fun y hy => ?_⟩
  obtain rfl := Number.real.inj hy
  exact h

/-- A truth value can stand in a document. -/
theorem Number.isPlain_bool (b : Bool) : (bool b).IsPlain := ⟨nofun, nofun⟩

/-- A whole number with no more digits than are written can stand in a document, with a minus or
without. -/
theorem Number.isPlain_signed {n : ℕ} (h : n < 10 ^ digitLimit) (negative : Bool) :
    (int (if negative then -n else n)).IsPlain := by
  refine ⟨isWritable_int_iff.2 ?_, nofun⟩
  split_ifs <;> simpa using h

/-- A kept number can stand in a document. -/
theorem Number.IsKept.isPlain {x : Number} (h : x.IsKept) : x.IsPlain := by
  refine ⟨h.isWritable, ?_⟩
  rintro y rfl
  exact h

/-- A kept value can stand in a document. -/
theorem Value.IsKept.isPlain {value : Value} (h : value.IsKept) : value.IsPlain := by
  cases value with
  | null | list | record => exact h.elim
  | text => trivial
  | number x => exact Number.IsKept.isPlain h

namespace Duration

/-- A product of real numbers that has a result is a real number of binary64. -/
theorem exists_of_real_mul {x : Extended} {y z : Number}
    (h : Number.mul .binary64 (.real x) y = .ok z) : ∃ w : Extended, z = .real w ∧ w.IsBinary64 := by
  rw [Number.real_mul] at h
  obtain ⟨w, -, h⟩ := bind_eq_ok.1 h
  exact ⟨_, (Except.ok.inj h).symm, Extended.isBinary64_mul _ _⟩

/-- What a literal is converted to is a real number of binary64. -/
theorem exists_of_toBeats {literal : Literal} {unit : String} {bpm beats : Number} {beatsPerBar : ℕ}
    (h : CueSheet.toBeats .binary64 (.number (.real (literal.real .binary64))) (some unit)
      (.number bpm) (.int beatsPerBar) = .ok beats) :
    ∃ x : Extended, beats = .real x ∧ x.IsBinary64 := by
  obtain ⟨tempo, -, h⟩ := bind_eq_ok.1 h
  dsimp only at h
  -- The cases are the units: milliseconds, seconds, beats, bars and none. Only the products can
  -- fail, since their other factors need not be real numbers.
  split at h
  · rw [Value.div_number, Number.real_div_factor _ (.inr rfl), ok_bind] at h
    obtain ⟨product, hproduct, h⟩ := bind_eq_ok.1 h
    obtain ⟨y, rfl, -⟩ := exists_of_real_mul hproduct
    rw [Number.real_div_factor _ (.inl rfl)] at h
    exact ⟨_, (Except.ok.inj h).symm, Extended.isBinary64_div _ _⟩
  · rw [Value.mul_number] at h
    obtain ⟨value, hvalue, h⟩ := bind_eq_ok.1 h
    obtain ⟨product, hproduct, rfl⟩ := map_eq_ok.1 hvalue
    obtain ⟨y, rfl, -⟩ := exists_of_real_mul hproduct
    rw [Value.div_number, Number.real_div_factor _ (.inl rfl)] at h
    exact ⟨_, (Except.ok.inj h).symm, Extended.isBinary64_div _ _⟩
  · obtain ⟨x, hx, h⟩ := bind_eq_ok.1 h
    obtain rfl := Except.ok.inj hx
    exact ⟨_, (Except.ok.inj h).symm, isBinary64_binary64 _⟩
  · rw [Value.mul_number] at h
    obtain ⟨value, hvalue, h⟩ := bind_eq_ok.1 h
    obtain ⟨product, hproduct, rfl⟩ := map_eq_ok.1 hvalue
    obtain ⟨y, rfl, hy⟩ := exists_of_real_mul hproduct
    exact ⟨y, (Except.ok.inj h).symm, hy⟩
  · cases h

end Duration

namespace Value

/-- The number that a text is read to can stand in a document. -/
theorem isPlain_of_readNumber? {text : List Char} {read : Except Fault Number} {x : Number}
    (hread : readNumber? .binary64 text = some read) (h : read = .ok x) : x.IsPlain := by
  unfold readNumber? at hread
  dsimp only at hread
  split at hread
  · next digits hdigits =>
    obtain rfl := Option.some.inj hread
    obtain ⟨n, hn, h⟩ := bind_eq_ok.1 h
    obtain rfl := pure_eq_ok_iff.1 h
    obtain ⟨-, -, rfl⟩ := wholeDigits?_eq_some_iff.1 hdigits
    exact Number.isPlain_signed (lt_of_readDigits hn) _
  · obtain ⟨⟨whole, fraction⟩, -, rfl⟩ := Option.map_eq_some_iff.1 hread
    obtain rfl := pure_eq_ok_iff.1 h
    have hbinary := isBinary64_binary64
      (mkRat (Text.ofDigits (whole ++ fraction)) (tenTo fraction.length))
    dsimp only
    split
    · exact Number.isPlain_real hbinary.neg
    · exact Number.isPlain_real hbinary

/-- The value that a raw text is read to can stand in a document. -/
theorem isPlain_of_ofRaw {raw : List Char} {value : Value} (h : ofRaw .binary64 raw = .ok value) :
    value.IsPlain := by
  unfold ofRaw at h
  split at h
  · obtain rfl := pure_eq_ok_iff.1 h
    trivial
  · split at h
    · next read hread =>
      obtain ⟨x, hx, h⟩ := bind_eq_ok.1 h
      obtain rfl := pure_eq_ok_iff.1 h
      exact isPlain_of_readNumber? hread hx
    · split at h
      · obtain rfl := pure_eq_ok_iff.1 h
        exact Number.isPlain_bool true
      · split at h
        · obtain rfl := pure_eq_ok_iff.1 h
          exact Number.isPlain_bool false
        · obtain rfl := pure_eq_ok_iff.1 h
          trivial

end Value

variable {bpm : Number} {beatsPerBar : ℕ}

/-- What a parameter is read to can stand in a document. -/
theorem isPlain_of_readParameter {key : String} {raw : List Char} {stored : String × Value}
    (h : readParameter .binary64 (.number bpm) (.int beatsPerBar) key raw = .ok stored) :
    stored.2.IsPlain := by
  unfold readParameter at h
  split at h
  · obtain ⟨beats, hbeats, h⟩ := bind_eq_ok.1 h
    obtain rfl := pure_eq_ok_iff.1 h
    obtain ⟨x, rfl, hx⟩ := Duration.exists_of_toBeats hbeats
    exact Number.isPlain_real hx
  · obtain ⟨value, hvalue, h⟩ := bind_eq_ok.1 h
    obtain rfl := pure_eq_ok_iff.1 h
    exact Value.isPlain_of_ofRaw hvalue

/-- A token keeps the parameters ones that can stand in a document. -/
theorem CueBody.isPlain_of_add {details details' : Details} {token : List Char}
    (hdetails : ∀ param ∈ details.params, param.2.IsPlain)
    (h : details.add .binary64 (.number bpm) (.int beatsPerBar) token = .ok details') :
    ∀ param ∈ details'.params, param.2.IsPlain := by
  cases Details.adds_of_add h with
  | argument | repeated => exact hdetails
  | kept _ hstored =>
    exact List.forall_mem_append.2
      ⟨hdetails, List.forall_mem_singleton.2 (isPlain_of_readParameter hstored)⟩

/-- The parameters of a cue that is read can stand in a document. -/
theorem Cue.isPlain_of_read {body : List Char} {read : CueBody}
    (h : CueBody.read .binary64 (.number bpm) (.int beatsPerBar) body = .ok read) :
    read.cue.IsPlain := by
  obtain ⟨details, hdetails, h⟩ := bind_eq_ok.1 h
  obtain rfl := Except.ok.inj h
  exact foldlM_preserves (P := fun details : CueBody.Details =>
      ∀ param ∈ details.params, param.2.IsPlain)
    (fun _ _ _ _ hd ha => CueBody.isPlain_of_add hd ha)
    (by simp [CueBody.Details.empty]) hdetails

end CueSheet
