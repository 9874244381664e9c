import CueSheet.Header
import CueSheet.Proofs.Numeric.Kept
import CueSheet.Proofs.Text.Digit

/-!
# Where the resolving of headers fails

Four headers hold numbers, and each refuses what it cannot use with a diagnostic. None of them
refuses a numeral of too many digits before it is read: a tempo or a number of beats may have any
number of leading zeros, and so may the entries of a tempo map and the two sides of a time
signature. The headers fail to be resolved exactly if the first header of some key holds such a
numeral where it is read (`Settings.fails_resolve_iff`).
-/

namespace CueSheet

open Text (digitValues ofDigits strip pieces)

namespace Literal

/-- A literal is a whole number of more digits than are read. -/
def IsOverlong (literal : Literal) : Prop :=
  literal.fraction = [] ∧ digitLimit < literal.whole.length

/-- The number of a literal fails to be read exactly if it is a whole number of too many digits. -/
theorem fails_number_iff {ρ : Rounding} {literal : Literal} :
    Fails (literal.number ρ) ↔ literal.IsOverlong := by
  unfold number IsOverlong
  cases literal.fraction with
  | nil =>
    rw [if_pos List.isEmpty_nil, fails_bind_of_total fun _ _ => not_fails_pure _,
      fails_readDigits_iff]
    simp
  | cons => simp

end Literal

namespace Settings

/-- A number above zero cannot be read: it is small enough and has too many digits. -/
def PositiveStumbles (value : String) : Prop :=
  ∃ literal, Literal.ofText? value.toList = some literal ∧
    (literal.real .binary64).isFinite = true ∧ literal.IsOverlong

/-- A time signature cannot be read: its upper side has too many digits, or its lower side has, and
the upper side is not zero. -/
def SignatureStumbles (value : String) : Prop :=
  ∃ upper lower, signatureDigits? value.toList = some (upper, lower) ∧
    (digitLimit < (digitValues upper).length ∨
      ofDigits (digitValues upper) ≠ 0 ∧ digitLimit < (digitValues lower).length)

/-- An entry of a tempo map is one of two numbers that are small enough. -/
def IsEntry (entry : List Char) (beat bpm : Literal) : Prop :=
  entryLiterals? entry = some (beat, bpm) ∧ (beat.real .binary64).isFinite = true ∧
    (bpm.real .binary64).isFinite = true

/-- An entry of a tempo map cannot be read: one of its numbers has too many digits. -/
def EntryStumbles (entry : List Char) : Prop :=
  ∃ beat bpm, IsEntry entry beat bpm ∧ (beat.IsOverlong ∨ bpm.IsOverlong)

/-- Entries cannot be read: one of them cannot, and none before it is refused. -/
inductive EntriesStumble : List (List Char) → Prop where
  /-- The first entry cannot be read. -/
  | here {entry : List Char} {entries : List (List Char)} (h : EntryStumbles entry) :
    EntriesStumble (entry :: entries)
  /-- The first entry is one, and an entry after it cannot be read. -/
  | later {entry : List Char} {entries : List (List Char)} {beat bpm : Literal}
    (hentry : IsEntry entry beat bpm) (h : EntriesStumble entries) :
    EntriesStumble (entry :: entries)

/-- The entries of a tempo map. -/
def entriesOf (value : String) : List (List Char) := (pieces (· == ',') value.toList).map strip

/-- A header cannot be read. -/
def HeaderStumbles : HeaderKey → String → Prop
  | .bpm, value | .beatsPerBar, value => PositiveStumbles value
  | .timeSignature, value => SignatureStumbles value
  | .tempoMap, value => EntriesStumble (entriesOf value)
  | .version, _ | .title, _ | .musicalKey, _ | .instruments, _ => False

/-- A number above zero fails to be read exactly if it stumbles. -/
theorem fails_readPositive_iff {header : TempoHeader} {value : String} :
    Fails (readPositive .binary64 header value) ↔ PositiveStumbles value := by
  unfold readPositive PositiveStumbles
  dsimp only
  cases Literal.ofText? value.toList with
  | none => simp
  | some literal =>
    simp only [Option.some.injEq, exists_eq_left']
    cases hfinite : (literal.real .binary64).isFinite with
    | false => simp
    | true =>
      rw [Bool.not_true, if_neg Bool.false_ne_true, fails_bind_of_total, Literal.fails_number_iff]
      · simp
      · intro number _
        exact not_fails_pure _

/-- A time signature fails to be read exactly if it stumbles. -/
theorem fails_readSignature_iff {value : String} :
    Fails (readSignature value) ↔ SignatureStumbles value := by
  unfold readSignature SignatureStumbles
  dsimp only
  cases signatureDigits? value.toList with
  | none => simp
  | some sides =>
    obtain ⟨upper, lower⟩ := sides
    rw [fails_bind_iff, fails_readDigits_iff]
    simp only [Option.some.injEq, Prod.mk.injEq]
    -- The lower side is only read if the upper one is not zero.
    constructor
    · rintro (hupper | ⟨beats, hbeats, hlower⟩)
      · exact ⟨upper, lower, ⟨rfl, rfl⟩, .inl hupper⟩
      · obtain ⟨-, rfl⟩ := readDigits_eq_ok_iff.1 hbeats
        split_ifs at hlower with hzero
        · exact absurd hlower (not_fails_pure _)
        · rw [fails_bind_of_total, fails_readDigits_iff] at hlower
          · exact ⟨upper, lower, ⟨rfl, rfl⟩, .inr ⟨hzero, hlower⟩⟩
          · intro unit _
            split_ifs <;> exact not_fails_pure _
    · rintro ⟨_, _, ⟨rfl, rfl⟩, hupper | ⟨hzero, hlower⟩⟩
      · exact .inl hupper
      · by_cases hupper : digitLimit < (digitValues upper).length
        · exact .inl hupper
        · refine .inr ⟨_, readDigits_of_le (not_lt.1 hupper), ?_⟩
          rw [if_neg hzero, fails_bind_iff, fails_readDigits_iff]
          exact .inl hlower

/-- An entry of a tempo map that is one is read to its two numbers. -/
theorem readEntry_of_isEntry {entry : List Char} {beat bpm : Literal} (h : IsEntry entry beat bpm) :
    readEntry .binary64 entry =
      beat.number .binary64 >>= fun start => bpm.number .binary64 >>= fun tempo =>
        .ok (some ⟨start, tempo⟩) := by
  obtain ⟨hliterals, hbeat, hbpm⟩ := h
  unfold readEntry
  rw [hliterals]
  dsimp only
  rw [hbeat, hbpm]
  rfl

/-- An entry of a tempo map that is none is refused. -/
theorem readEntry_of_not_isEntry {entry : List Char} (h : ¬∃ beat bpm, IsEntry entry beat bpm) :
    readEntry .binary64 entry = .ok none := by
  unfold readEntry
  split
  · rfl
  · next beat bpm hliterals =>
    split_ifs with hfinite
    · rw [Bool.and_eq_true] at hfinite
      exact absurd ⟨beat, bpm, hliterals, hfinite⟩ h
    · rfl

/-- An entry has two literals at most. -/
theorem IsEntry.unique {entry : List Char} {beat bpm beat' bpm' : Literal}
    (h : IsEntry entry beat bpm) (h' : IsEntry entry beat' bpm') : beat = beat' ∧ bpm = bpm' :=
  Prod.mk.inj (Option.some.inj (h.1.symm.trans h'.1))

/-- An entry of a tempo map fails to be read exactly if it stumbles. -/
theorem fails_readEntry_iff {entry : List Char} :
    Fails (readEntry .binary64 entry) ↔ EntryStumbles entry := by
  by_cases h : ∃ beat bpm, IsEntry entry beat bpm
  · obtain ⟨beat, bpm, hentry⟩ := h
    have hstumbles : EntryStumbles entry ↔ beat.IsOverlong ∨ bpm.IsOverlong := by
      constructor
      · rintro ⟨beat', bpm', hentry', hoverlong⟩
        obtain ⟨rfl, rfl⟩ := hentry.unique hentry'
        exact hoverlong
      · exact fun hoverlong => ⟨beat, bpm, hentry, hoverlong⟩
    rw [readEntry_of_isEntry hentry, hstumbles, fails_bind_iff, Literal.fails_number_iff]
    refine or_congr_right' fun hbeat => ?_
    have hreads : ¬Fails (beat.number .binary64) := Literal.fails_number_iff.not.2 hbeat
    obtain ⟨start, hstart⟩ := not_fails_iff.1 hreads
    simp only [hstart, Except.ok.injEq, exists_eq_left']
    rw [fails_bind_of_total fun _ _ => not_fails_ok _, Literal.fails_number_iff]
  · rw [readEntry_of_not_isEntry h]
    simp only [not_fails_ok, false_iff]
    rintro ⟨beat, bpm, hentry, -⟩
    exact h ⟨beat, bpm, hentry⟩

/-- Entries fail to be read exactly if they stumble. -/
theorem fails_readEntries_iff {entries : List (List Char)} :
    Fails (readEntries .binary64 entries) ↔ EntriesStumble entries := by
  induction entries with
  | nil =>
    simp only [readEntries, not_fails_pure, false_iff]
    rintro ⟨⟩
  | cons entry entries ih =>
    have hcases : EntriesStumble (entry :: entries) ↔
        EntryStumbles entry ∨ (∃ beat bpm, IsEntry entry beat bpm) ∧ EntriesStumble entries := by
      constructor
      · rintro (h | ⟨hentry, h⟩)
        · exact .inl h
        · exact .inr ⟨⟨_, _, hentry⟩, h⟩
      · rintro (h | ⟨⟨beat, bpm, hentry⟩, h⟩)
        · exact .here h
        · exact .later hentry h
    rw [readEntries, hcases, fails_bind_iff, fails_readEntry_iff]
    refine or_congr_right' fun hfirst => ?_
    obtain ⟨read, hread⟩ := not_fails_iff.1 (fails_readEntry_iff.not.2 hfirst)
    simp only [hread, Except.ok.injEq, exists_eq_left']
    -- What is no entry ends the reading, so entries behind it cannot fail.
    by_cases h : ∃ beat bpm, IsEntry entry beat bpm
    · obtain ⟨beat, bpm, hentry⟩ := h
      rw [readEntry_of_isEntry hentry] at hread
      obtain ⟨start, -, hread⟩ := bind_eq_ok.1 hread
      obtain ⟨tempo, -, hread⟩ := bind_eq_ok.1 hread
      obtain rfl := Except.ok.inj hread
      have hentry' : ∃ beat bpm, IsEntry entry beat bpm := ⟨beat, bpm, hentry⟩
      dsimp only
      rw [fails_bind_of_total fun _ _ => not_fails_pure _, ih]
      simp [hentry']
    · rw [readEntry_of_not_isEntry h] at hread
      obtain rfl := Except.ok.inj hread
      simp [h]

/-- A tempo map fails to be read exactly if its entries stumble. -/
theorem fails_readTempoMap_iff {value : String} :
    Fails (readTempoMap .binary64 value) ↔ EntriesStumble (entriesOf value) := by
  unfold readTempoMap
  rw [fails_bind_of_total, fails_readEntries_iff]
  · rfl
  · intro read _
    split <;> exact not_fails_pure _

/-- A header that is read fails exactly if it is there and its value fails to be read. -/
theorem fails_readIfPresent_iff {α : Type} {headers : Headers} {key : HeaderKey}
    {read : String → Except Fault (α × List Problem)} {absent : α} :
    Fails (readIfPresent headers key read absent) ↔
      ∃ header, headers.get? key = some header ∧ Fails (read header.value) := by
  unfold readIfPresent
  cases headers.get? key with
  | none => simp
  | some header =>
    dsimp only
    rw [fails_bind_of_total fun _ _ => not_fails_pure _]
    simp

/-- The headers stumble: the first header of a key cannot be read. -/
def HeadersStumble (headers : Headers) : Prop :=
  ∃ key header, headers.get? key = some header ∧ HeaderStumbles key header.value

/-- The headers fail to be resolved exactly if they stumble. -/
theorem fails_resolve_iff {config : Config} {headers : Headers} :
    Fails (resolve .binary64 config headers) ↔ HeadersStumble headers := by
  have hkeys : HeadersStumble headers ↔
      (∃ header, headers.get? .tempoMap = some header ∧ EntriesStumble (entriesOf header.value)) ∨
      (∃ header, headers.get? .timeSignature = some header ∧ SignatureStumbles header.value) ∨
      (∃ header, headers.get? .bpm = some header ∧ PositiveStumbles header.value) ∨
      (∃ header, headers.get? .beatsPerBar = some header ∧ PositiveStumbles header.value) := by
    constructor
    · rintro ⟨key, header, hheader, hstumbles⟩
      cases key with
      | version | title | musicalKey | instruments => exact hstumbles.elim
      | tempoMap => exact .inl ⟨header, hheader, hstumbles⟩
      | timeSignature => exact .inr (.inl ⟨header, hheader, hstumbles⟩)
      | bpm => exact .inr (.inr (.inl ⟨header, hheader, hstumbles⟩))
      | beatsPerBar => exact .inr (.inr (.inr ⟨header, hheader, hstumbles⟩))
    · rintro (⟨header, hheader, h⟩ | ⟨header, hheader, h⟩ | ⟨header, hheader, h⟩ |
        ⟨header, hheader, h⟩)
      · exact ⟨.tempoMap, header, hheader, h⟩
      · exact ⟨.timeSignature, header, hheader, h⟩
      · exact ⟨.bpm, header, hheader, h⟩
      · exact ⟨.beatsPerBar, header, hheader, h⟩
  -- The four headers are read one after the other, each whatever those before it are read to.
  have hresolve : Fails (resolve .binary64 config headers) ↔
      Fails (readIfPresent headers .tempoMap (readTempoMap .binary64) []) ∨
      Fails (readIfPresent headers .timeSignature readSignature none) ∨
      Fails (readIfPresent headers .bpm (readPositive .binary64 .bpm) none) ∨
      Fails (readIfPresent headers .beatsPerBar (readPositive .binary64 .beatsPerBar) none) :=
    fails_bind_iff_or fun _ => fails_bind_iff_or fun _ => fails_bind_iff_or fun _ =>
      fails_bind_of_total fun _ _ => not_fails_pure _
  rw [hresolve, hkeys]
  simp only [fails_readIfPresent_iff, fails_readTempoMap_iff, fails_readSignature_iff,
    fails_readPositive_iff]

end Settings

end CueSheet
