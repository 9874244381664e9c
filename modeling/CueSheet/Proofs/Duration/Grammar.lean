import CueSheet.Proofs.Duration
import CueSheet.Proofs.Lists
import CueSheet.Proofs.Numeric.Literal
import CueSheet.Proofs.Text.Blank

/-!
# How durations are written

A duration is written as a number and, right behind it, a unit in any letter case, or without a
unit, and then it is in seconds (`Duration.IsWritten`). A text of ASCII is read as the duration that
it is written as (`Duration.ofText?_eq_some_iff`), and there is one way only to part it into a
number and a unit (`Duration.IsWritten.unique`).
-/

namespace CueSheet

open Text (isDigit isBlank strip lower)

namespace TimeUnit

variable {written : List Char} {spelling? : Option String} {unit : TimeUnit}

/-- The spellings of a unit in lower case. -/
def spelledAs : TimeUnit → List String
  | milliseconds => ["ms"]
  | seconds => ["s"]
  | beats => ["beats", "beat", "b"]
  | bars => ["bars", "bar"]

/-- A text is a unit: one of its spellings in any letter case, of which the lower case is kept. No
text at all is the unit of seconds. -/
inductive IsWritten : List Char → Option String → TimeUnit → Prop where
  /-- There is no unit. -/
  | absent : IsWritten [] none seconds
  /-- There is a spelling of the unit. -/
  | spelled {written : List Char} {spelling : String} {unit : TimeUnit}
    (hspelling : spelling ∈ unit.spelledAs) (hcase : written.map Char.toLower = spelling.toList) :
    IsWritten written (some spelling) unit

/-- A spelling is found as the unit that it is a spelling of. -/
theorem ofSpelling?_eq_some_iff {spelling : String} :
    ofSpelling? spelling = some unit ↔ spelling ∈ unit.spelledAs := by
  constructor
  · intro h
    have hall : ∀ entry ∈ spellings, entry.1 ∈ entry.2.spelledAs := by decide
    exact hall _ (mem_of_lookup h)
  · have hall : ∀ word ∈ unit.spelledAs, ofSpelling? word = some unit := by
      cases unit <;> decide
    exact hall spelling

/-- The characters of a unit are letters of ASCII. -/
theorem IsWritten.isAlpha (h : IsWritten written spelling? unit) :
    ∀ c ∈ written, c.toNat < 128 ∧ c.isAlpha = true := by
  intro c hc
  cases h with
  | absent => cases hc
  | @spelled _ spelling _ hspelling hcase =>
    have hwords : ∀ word ∈ words,
        (word.toList.all fun c => c.toNat < 128 && c.isLower) = true := by decide +kernel
    have hword := mem_words_iff.1 (Option.isSome_of_eq_some (ofSpelling?_eq_some_iff.2 hspelling))
    have hletter : (decide (c.toLower.toNat < 128) && c.toLower.isLower) = true :=
      List.all_eq_true.1 (hwords spelling hword) c.toLower (hcase ▸ List.mem_map_of_mem hc)
    rw [Bool.and_eq_true, decide_eq_true_eq] at hletter
    obtain ⟨hlt, hlower⟩ := hletter
    have hascii : c.toNat < 128 := by
      by_contra hle
      rw [Text.toLower_of_not_ascii (not_lt.1 hle)] at hlt
      exact hle hlt
    exact ⟨hascii, Text.of_ascii (P := fun c => c.toLower.isLower = true → c.isAlpha = true)
      (by decide +kernel) hascii hlower⟩

/-- A text of ASCII is a unit in some letter case exactly if its lower case is a spelling. -/
theorem isSpelling_iff (hascii : ∀ c ∈ written, c.toNat < 128) :
    isSpelling written = true ↔
      ∃ unit : TimeUnit, String.ofList (written.map Char.toLower) ∈ unit.spelledAs := by
  have hfold : written.map foldLetter = written.map Char.toLower := by
    refine List.map_congr_left fun c hc => if_neg ?_
    rintro rfl
    exact absurd (hascii _ hc) (by decide)
  rw [isSpelling, hfold, Option.isSome_iff_exists]
  exact exists_congr fun unit => ofSpelling?_eq_some_iff

/-- No spelling is empty. -/
theorem ne_nil_of_mem_spelledAs {spelling : String} (h : spelling ∈ unit.spelledAs) :
    spelling.toList ≠ [] := by
  have hwords : ∀ word ∈ unit.spelledAs, word.toList ≠ [] := by
    cases unit <;> decide
  exact hwords spelling h

/-- A text is one unit at most, and is kept in one way. -/
theorem IsWritten.unique {spelling?' : Option String} {unit' : TimeUnit}
    (h : IsWritten written spelling? unit) (h' : IsWritten written spelling?' unit') :
    spelling? = spelling?' ∧ unit = unit' := by
  cases h with
  | absent =>
    cases h' with
    | absent => exact ⟨rfl, rfl⟩
    | spelled hspelling' hcase' => exact absurd hcase'.symm (ne_nil_of_mem_spelledAs hspelling')
  | spelled hspelling hcase =>
    cases h' with
    | absent => exact absurd hcase.symm (ne_nil_of_mem_spelledAs hspelling)
    | spelled hspelling' hcase' =>
      obtain rfl := String.toList_inj.1 (hcase.symm.trans hcase')
      have hfound := ofSpelling?_eq_some_iff.2 hspelling
      rw [ofSpelling?_eq_some_iff.2 hspelling'] at hfound
      exact ⟨rfl, (Option.some.inj hfound).symm⟩

end TimeUnit

namespace Duration

variable {text number written : List Char} {duration : Duration} {unit : TimeUnit}

/-- A text is written as a duration: digits, or digits, a point and digits, and behind them a unit
in any letter case, or none. -/
structure IsWritten (text number written : List Char) (duration : Duration) (unit : TimeUnit) :
    Prop where
  /-- The text falls into a number and a unit. -/
  text_eq : number ++ written = text
  /-- The number is the amount. -/
  number : Literal.IsSpelled number duration.amount
  /-- The unit is that of the duration. -/
  unit : TimeUnit.IsWritten written duration.unit unit

/-- The number of a duration is scanned up to its unit. -/
theorem IsWritten.scan? (h : IsWritten text number written duration unit) :
    Literal.scan? text = some (duration.amount, written) := by
  rw [← h.text_eq]
  refine h.number.scan? fun c hc => ?_
  obtain ⟨hascii, halpha⟩ := h.unit.isAlpha c (List.mem_of_mem_head? hc)
  exact Text.of_ascii (P := fun c => c.isAlpha = true → isDigit c = false ∧ c ≠ '.')
    (by decide +kernel) hascii halpha

/-- A text is written as a duration in one way only. -/
theorem IsWritten.unique {number' written' : List Char} {duration' : Duration} {unit' : TimeUnit}
    (h : IsWritten text number written duration unit)
    (h' : IsWritten text number' written' duration' unit') :
    number = number' ∧ written = written' ∧ duration = duration' ∧ unit = unit' := by
  obtain ⟨hamount, rfl⟩ := Prod.mk.inj (Option.some.inj (h.scan?.symm.trans h'.scan?))
  obtain ⟨hunit, rfl⟩ := h.unit.unique h'.unit
  have hnumber := List.append_cancel_right (h.text_eq.trans h'.text_eq.symm)
  exact ⟨hnumber, rfl, congrArg₂ Duration.mk hamount hunit, rfl⟩

/-- There are no blanks in a duration. -/
theorem IsWritten.strip_eq (h : IsWritten text number written duration unit) :
    strip text = text := by
  rw [← h.text_eq]
  refine (Text.isStripped_of_bare ?_).strip_eq
  refine List.forall_mem_append.2 ⟨fun c hc => ?_, fun c hc => ?_⟩
  · rcases h.number.isDigit_or c hc with hdigit | rfl
    · exact Text.not_isBlank_of_isDigit hdigit
    · decide
  · obtain ⟨hascii, halpha⟩ := h.unit.isAlpha c hc
    exact Text.of_ascii (P := fun c => c.isAlpha = true → isBlank c = false) (by decide +kernel)
      hascii halpha

/-- A text is read as the duration that it is written as, blanks around it aside. -/
theorem ofText?_of_isWritten (h : IsWritten (strip text) number written duration unit) :
    ofText? text = some duration := by
  have hascii : ∀ c ∈ written, c.toNat < 128 := fun c hc => (h.unit.isAlpha c hc).1
  have hunit := h.unit
  obtain ⟨amount, spelling?⟩ := duration
  unfold ofText?
  rw [h.scan?]
  cases hunit with
  | absent => rfl
  | @spelled _ spelling _ hspelling hcase =>
    have hlower : String.ofList (written.map Char.toLower) = spelling := by
      rw [hcase, String.ofList_toList]
    have hfound : TimeUnit.isSpelling written = true :=
      (TimeUnit.isSpelling_iff hascii).2 ⟨unit, hlower.symm ▸ hspelling⟩
    cases written with
    | nil => exact absurd hcase.symm (TimeUnit.ne_nil_of_mem_spelledAs hspelling)
    | cons c rest =>
      dsimp only
      rw [if_pos hfound, Text.lower_of_ascii hascii, hlower]

/-- A text of ASCII is read as a duration exactly if it is written as it, blanks around it aside. -/
theorem ofText?_eq_some_iff (hascii : ∀ c ∈ text, c.toNat < 128) :
    ofText? text = some duration ↔
      ∃ number written unit, IsWritten (strip text) number written duration unit := by
  constructor
  · intro h
    unfold ofText? at h
    split at h
    · cases h
    · next amount hscan =>
      obtain rfl := Option.some.inj h
      obtain ⟨number, htext, hnumber⟩ := Literal.exists_isSpelled_of_scan? hscan
      exact ⟨number, [], .seconds, htext.symm, hnumber, .absent⟩
    · next amount written _ hscan =>
      split_ifs at h with hspelling
      obtain rfl := Option.some.inj h
      obtain ⟨number, htext, hnumber⟩ := Literal.exists_isSpelled_of_scan? hscan
      -- The unit is of ASCII, where a spelling is a unit in any case.
      have hwritten : ∀ c ∈ written, c.toNat < 128 := fun c hc =>
        hascii c (Text.mem_of_mem_strip (htext ▸ List.mem_append_right number hc))
      obtain ⟨unit, hunit⟩ := (TimeUnit.isSpelling_iff hwritten).1 hspelling
      refine ⟨number, written, unit, htext.symm, hnumber, ?_⟩
      rw [Text.lower_of_ascii hwritten]
      exact .spelled hunit (String.toList_ofList).symm
  · rintro ⟨number, written, unit, h⟩
    exact ofText?_of_isWritten h

end Duration

end CueSheet
