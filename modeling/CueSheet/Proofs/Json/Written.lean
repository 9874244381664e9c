import CueSheet.Json.Written
import CueSheet.Proofs.Numeric.Kept

/-!
# Which values can be written as JSON

A value is written as a document in strict JSON exactly if each quantity in it can be written there:
a real number that is finite, or a whole number with no more digits than are written
(`Json.fails_writeAt_iff`). How the document is laid out makes no difference.
-/

namespace CueSheet

namespace Value

variable {τ : Type}

mutual

/-- The quantities in a value, at whatever depth. -/
def numbers : Value τ → List Number
  | number x => [x]
  | list items => numbersOfItems items
  | record members => numbersOfMembers members
  | null | text _ => []

/-- The quantities in the items of a list. -/
def numbersOfItems : List (Value τ) → List Number
  | [] => []
  | item :: items => numbers item ++ numbersOfItems items

/-- The quantities in the members of a record. -/
def numbersOfMembers : List (τ × Value τ) → List Number
  | [] => []
  | (_, value) :: members => numbers value ++ numbersOfMembers members

end

@[simp] theorem numbers_null : (null : Value τ).numbers = [] := rfl

@[simp] theorem numbers_number (x : Number) : (number x : Value τ).numbers = [x] := rfl

@[simp] theorem numbers_text (t : τ) : (text t).numbers = [] := rfl

/-- The quantities in a list are those in its items. -/
@[simp] theorem numbers_list (items : List (Value τ)) :
    (list items).numbers = items.flatMap numbers := by
  change numbersOfItems items = _
  induction items with
  | nil => rfl
  | cons item items ih => rw [numbersOfItems, ih, List.flatMap_cons]

/-- The quantities in a record are those in its members. -/
@[simp] theorem numbers_record (members : List (τ × Value τ)) :
    (record members).numbers = members.flatMap fun member => member.2.numbers := by
  change numbersOfMembers members = _
  induction members with
  | nil => rfl
  | cons member members ih => rw [numbersOfMembers, ih, List.flatMap_cons]

/-- A text that may be missing has no quantities in it. -/
@[simp] theorem numbers_ofText? (t : Option τ) : (ofText? t).numbers = [] := by
  cases t <;> rfl

/-- Texts have no quantities in them. -/
@[simp] theorem numbers_ofTexts (texts : List τ) : (ofTexts texts).numbers = [] := by
  simp [ofTexts, List.flatMap_map]

end Value

/-- A quantity is finite and has no more digits than are written. -/
structure Number.IsStrict (x : Number) : Prop where
  /-- It is neither infinite nor undefined. -/
  finite : x.isFinite = true
  /-- A whole number has no more digits than are written. -/
  writable : x.IsWritable

/-- A whole number is finite, so its digits alone decide. -/
theorem Number.isStrict_int_iff {n : ℤ} : (int n).IsStrict ↔ (int n).IsWritable :=
  ⟨fun h => h.writable, fun h => ⟨rfl, h⟩⟩

namespace Json

/-- A whole number fails to be written exactly if it has more digits than are written. -/
theorem fails_writeInt_iff {n : ℤ} : Fails (writeInt n) ↔ ¬(Number.int n).IsStrict := by
  rw [Number.isStrict_int_iff, ← Number.fails_write_iff]
  rfl

/-- A real number fails to be written exactly if it is not finite. -/
theorem fails_writeReal_iff {x : Extended} : Fails (writeReal x) ↔ ¬(Number.real x).IsStrict := by
  have hstrict : (Number.real x).IsStrict ↔ x.isFinite = true :=
    ⟨fun h => h.finite, fun h => ⟨h, nofun⟩⟩
  unfold writeReal
  rw [hstrict]
  split_ifs with hfinite
  · exact iff_of_false (not_fails_ok _) (not_not.2 hfinite)
  · exact iff_of_true (fails_error _) hfinite

mutual

/-- A value fails to be written exactly if some quantity in it does. -/
theorem fails_writeAt_iff (style : Style) (level : ℕ) (value : Value) :
    Fails (writeAt style level value) ↔ ∃ x ∈ value.numbers, ¬x.IsStrict := by
  match value with
  | .null | .text _ => simp [writeAt]
  | .number (.bool b) =>
    have hstrict : (Number.bool b).IsStrict := ⟨rfl, fun _ h => by cases h⟩
    simp [writeAt, hstrict]
  | .number (.int n) => simp [writeAt, fails_writeInt_iff]
  | .number (.real x) => simp [writeAt, fails_writeReal_iff]
  | .list [] => simp [writeAt]
  | .list (item :: items) =>
    have hfirst := fails_writeAt_iff style (level + 1) item
    have hrest := fails_writeItems_iff style (level + 1) items
    rw [writeAt, fails_bind_iff_or fun _ => fails_bind_of_total fun _ _ => not_fails_pure _, hfirst,
      hrest]
    simp [or_and_right, exists_or]
  | .record [] => simp [writeAt]
  | .record ((name, value) :: members) =>
    have hfirst := fails_writeAt_iff style (level + 1) value
    have hrest := fails_writeMembers_iff style (level + 1) members
    rw [writeAt, fails_bind_iff_or fun _ => fails_bind_of_total fun _ _ => not_fails_pure _, hfirst,
      hrest]
    simp [or_and_right, exists_or]

/-- Items fail to be written exactly if some quantity in them does. -/
theorem fails_writeItems_iff (style : Style) (level : ℕ) (items : List Value) :
    Fails (writeItems style level items) ↔ ∃ x ∈ items.flatMap Value.numbers, ¬x.IsStrict := by
  match items with
  | [] => simp [writeItems]
  | item :: items =>
    have hfirst := fails_writeAt_iff style level item
    have hrest := fails_writeItems_iff style level items
    rw [writeItems, fails_bind_iff_or fun _ => fails_bind_of_total fun _ _ => not_fails_pure _,
      hfirst, hrest]
    simp [or_and_right, exists_or]

/-- Members fail to be written exactly if some quantity in them does. -/
theorem fails_writeMembers_iff (style : Style) (level : ℕ) (members : List (String × Value)) :
    Fails (writeMembers style level members) ↔
      ∃ x ∈ members.flatMap (fun member => member.2.numbers), ¬x.IsStrict := by
  match members with
  | [] => simp [writeMembers]
  | (name, value) :: members =>
    have hfirst := fails_writeAt_iff style level value
    have hrest := fails_writeMembers_iff style level members
    rw [writeMembers, fails_bind_iff_or fun _ => fails_bind_of_total fun _ _ => not_fails_pure _,
      hfirst, hrest]
    simp [or_and_right, exists_or]

end

/-- A document fails to be written exactly if some quantity in it does. -/
theorem fails_writeDocument_iff {value : Value} :
    Fails (writeDocument value) ↔ ∃ x ∈ value.numbers, ¬x.IsStrict := by
  rw [writeDocument, fails_bind_of_total fun _ _ => not_fails_pure _]
  exact fails_writeAt_iff .indented 0 value

end Json

end CueSheet
