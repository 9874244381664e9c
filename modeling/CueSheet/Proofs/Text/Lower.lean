import Mathlib.Data.Int.Notation
import CueSheet.Proofs.Text.Blank
import CueSheet.Proofs.Text.Case

/-!
# Lower case stays as it is

The lower-case form of a text is its own lower-case form (`lower_lower`), and what it has that the
text did not have are letters (`mem_lower`). Both are facts about the table of letters: what the runs
of the table are turned into lies in no run again. They are checked run by run, not letter by letter:
`skips` passes over the table as `counterpart` does, with a whole run of results at once.
-/

namespace CueSheet.Text.Case

/-! ## The table of letters -/

/-- Whether the numbers from `low` to `high` lie in no run of a table; if `sparse`, only those whose
distance from `low` is even. -/
def skips (low high : ℕ) (sparse : Bool) : List Run → Bool
  | [] => true
  | run :: rest =>
    if high < run.first then true
    else
      (Nat.blt run.last low || (sparse && run.step == 2 && (low + run.first) % 2 == 1)) &&
        skips low high sparse rest

/-- Code points that lie in no run of a table are their own counterparts. -/
theorem counterpart_of_skips {low high n : ℕ} {sparse : Bool} {runs : List Run}
    (h : skips low high sparse runs = true) (hlow : low ≤ n) (hhigh : n ≤ high)
    (heven : sparse = true → (n - low) % 2 = 0) : counterpart runs n = n := by
  induction runs with
  | nil => rfl
  | cons run rest ih =>
    rw [skips] at h
    rw [counterpart]
    by_cases hstop : n < run.first
    · rw [if_pos hstop]
    have hreach : ¬high < run.first := by omega
    rw [if_neg hreach] at h
    obtain ⟨hmiss, hrest⟩ := Bool.and_eq_true_iff.1 h
    have hrun : ¬(n ≤ run.last ∧ (n - run.first) % run.step = 0) := by
      rintro ⟨hlast, hmod⟩
      simp only [Bool.and_eq_true, Bool.or_eq_true, Nat.blt_eq, beq_iff_eq] at hmiss
      obtain hafter | ⟨⟨hsparse, hstep⟩, hodd⟩ := hmiss
      · omega
      · -- The letters of the run are between those that are passed over.
        have := heven hsparse
        rw [hstep] at hmod
        omega
    rw [if_neg hstop, if_neg hrun, ih hrest]

/-- A code point is its own counterpart, or it lies in a run of the table and is shifted. -/
theorem counterpart_cases (runs : List Run) (n : ℕ) :
    counterpart runs n = n ∨ ∃ run ∈ runs, run.first ≤ n ∧ n ≤ run.last ∧
      (n - run.first) % run.step = 0 ∧ counterpart runs n = (n + run.shift).toNat := by
  induction runs with
  | nil => exact .inl rfl
  | cons run rest ih =>
    rw [counterpart]
    split_ifs with hstop hrun
    · exact .inl rfl
    · exact .inr ⟨run, List.mem_cons_self, Nat.not_lt.1 hstop, hrun.1, hrun.2, rfl⟩
    · obtain hsame | ⟨found, hmem, hfound⟩ := ih
      · exact .inl hsame
      · exact .inr ⟨found, List.mem_cons_of_mem _ hmem, hfound⟩

/-- Whether the code points from `low` to `high` are letters that are in lower case; if `sparse`,
only those whose distance from `low` is even. -/
def areLow (low high : ℕ) (sparse : Bool) : Bool :=
  skips low high sparse lowerRuns &&
    (Nat.ble 128 low || (Nat.ble 97 low && Nat.ble high 122)) &&
    (Nat.blt high 0x130 || Nat.blt 0x130 low) &&
    (Nat.blt high 0xd800 || (Nat.blt 0xdfff low && Nat.blt high 0x110000)) &&
    !blankTurns.covers low && blankTurns.all fun turn => Nat.blt high turn || Nat.ble turn low

/-- What the runs of the table are turned into are letters in lower case. -/
theorem areLow_lowerRuns : (lowerRuns.all fun run =>
    areLow (run.first + run.shift).toNat (run.last + run.shift).toNat
      (run.step % 2 == 0 || run.first == run.last)) = true := by
  decide +kernel

/-- What the check of a run tells of one code point. -/
theorem of_areLow {low high n : ℕ} {sparse : Bool} (h : areLow low high sparse = true)
    (hlow : low ≤ n) (hhigh : n ≤ high) (heven : sparse = true → (n - low) % 2 = 0) :
    counterpart lowerRuns n = n ∧ (128 ≤ n ∨ 97 ≤ n ∧ n ≤ 122) ∧ n ≠ 0x130 ∧ n.isValidChar ∧
      blankTurns.covers n = false := by
  simp only [areLow, Bool.and_eq_true, Bool.or_eq_true, Nat.ble_eq, Nat.blt_eq, List.all_eq_true,
    Bool.not_eq_true'] at h
  obtain ⟨⟨⟨⟨⟨hskips, hrange⟩, hdotted⟩, hvalid⟩, hblank⟩, hturns⟩ := h
  refine ⟨counterpart_of_skips hskips hlow hhigh heven, by omega, by omega, ?_, ?_⟩
  · unfold Nat.isValidChar
    omega
  · rw [Turns.covers_eq hlow fun turn hturn => (hturns turn hturn).imp_left (by omega), hblank]

/-- What a run of the table turns a code point into is a letter in lower case. -/
theorem of_mem_run {run : Run} {n : ℕ} (hmem : run ∈ lowerRuns) (hfirst : run.first ≤ n)
    (hlast : n ≤ run.last) (hmod : (n - run.first) % run.step = 0) {m : ℕ}
    (hm : ((n : ℤ) + run.shift).toNat = m) :
    counterpart lowerRuns m = m ∧ (128 ≤ m ∨ 97 ≤ m ∧ m ≤ 122) ∧ m ≠ 0x130 ∧ m.isValidChar ∧
      blankTurns.covers m = false := by
  have hrun := List.all_eq_true.1 areLow_lowerRuns run hmem
  -- The first result is no less than a letter of ASCII, so no difference is cut off at zero.
  have hpositive : 97 ≤ ((run.first : ℤ) + run.shift).toNat := by
    have := (of_areLow hrun (Nat.le_refl _) (by omega) (by simp)).2.1
    omega
  refine of_areLow hrun (by omega) (by omega) fun hsparse => ?_
  have heven : (n - run.first) % 2 = 0 := by
    simp only [Bool.or_eq_true, beq_iff_eq] at hsparse
    rcases hsparse with hstep | hsingle
    · exact Nat.mod_eq_zero_of_dvd
        (Nat.dvd_trans (Nat.dvd_of_mod_eq_zero hstep) (Nat.dvd_of_mod_eq_zero hmod))
    · omega
  omega

/-- A letter is in lower case, wherever it stands. -/
def IsLow (c : Char) : Prop := c ≠ 'Σ' ∧ lowerLetter c = [c]

/-- A character is a letter beyond ASCII or a letter of ASCII in lower case, and not blank. -/
def IsLetter (c : Char) : Prop :=
  (128 ≤ c.toNat ∨ 97 ≤ c.toNat ∧ c.toNat ≤ 122) ∧ isBlank c = false

/-- The lower-case form of a letter is in lower case, and a letter if it is a new one. -/
theorem isLow_of_mem_lowerLetter {c d : Char} (hc : c ≠ 'Σ') (h : d ∈ lowerLetter c) :
    IsLow d ∧ (d = c ∨ IsLetter d) := by
  unfold lowerLetter at h
  split_ifs at h with hdotted
  · -- The dotted capital i becomes two characters.
    simp only [List.mem_cons, List.not_mem_nil, or_false] at h
    rcases h with rfl | rfl
    · exact ⟨⟨by decide, by decide⟩, .inr ⟨by decide, by decide⟩⟩
    · exact ⟨⟨by decide, by decide +kernel⟩, .inr ⟨by decide, by decide⟩⟩
  obtain rfl := List.mem_singleton.1 h
  rcases counterpart_cases lowerRuns c.toNat with hsame | ⟨run, hmem, hfirst, hlast, hmod, hshift⟩
  · have hself : Char.ofNat (counterpart lowerRuns c.toNat) = c := by
      rw [hsame, Char.ofNat_toNat]
    rw [hself]
    refine ⟨⟨hc, ?_⟩, .inl rfl⟩
    rw [lowerLetter, if_neg hdotted, hself]
  · -- A character in a run is shifted to its counterpart, which is in no run.
    obtain ⟨hfixed, hrange, hother, hvalid, hblank⟩ :=
      of_mem_run hmem hfirst hlast hmod hshift.symm
    generalize counterpart lowerRuns c.toNat = m at *
    have htoNat : (Char.ofNat m).toNat = m := by
      rw [Char.ofNat, dif_pos hvalid]
      rfl
    have hsigma : Char.ofNat m ≠ 'Σ' := by
      intro heq
      obtain rfl : m = 0x3a3 := by rw [← htoNat, heq]; rfl
      revert hfixed
      decide +kernel
    have hdot : Char.ofNat m ≠ 'İ' := by
      intro heq
      exact hother (by rw [← htoNat, heq]; rfl)
    refine ⟨⟨hsigma, ?_⟩, .inr ⟨by rwa [htoNat], by rwa [isBlank, htoNat]⟩⟩
    rw [lowerLetter, if_neg hdot, htoNat, hfixed]

end CueSheet.Text.Case

namespace CueSheet.Text

open Case

/-- The lower-case form of a character in a text is not empty, and it holds the character itself or
letters in lower case. -/
theorem exists_lowerFrom_cons (afterCased : Bool) (c : Char) (text : List Char) :
    ∃ letters after, lowerFrom afterCased (c :: text) = letters ++ lowerFrom after text ∧
      letters ≠ [] ∧ ∀ d ∈ letters, IsLow d ∧ (d = c ∨ IsLetter d) := by
  refine ⟨_, _, rfl, ?_, fun d hd => ?_⟩
  · unfold lowerLetter
    split_ifs <;> simp
  · split_ifs at hd with hsigma hfinal
    · obtain rfl := List.mem_singleton.1 hd
      exact ⟨⟨by decide, by decide +kernel⟩, .inr ⟨by decide, by decide⟩⟩
    · obtain rfl := List.mem_singleton.1 hd
      exact ⟨⟨by decide, by decide +kernel⟩, .inr ⟨by decide, by decide⟩⟩
    · exact isLow_of_mem_lowerLetter hsigma hd

/-- Only the empty text has an empty lower-case form. -/
theorem lower_eq_nil_iff {text : List Char} : lower text = [] ↔ text = [] := by
  cases text with
  | nil => exact iff_of_true rfl rfl
  | cons c text =>
    obtain ⟨letters, after, hlower, hne, -⟩ := exists_lowerFrom_cons false c text
    refine iff_of_false (fun hnil => hne ?_) (List.cons_ne_nil c text)
    rw [lower, hlower] at hnil
    exact (List.append_eq_nil_iff.1 hnil).1

/-- What the lower-case form of a text has is in lower case, and a letter if the text does not have
it. -/
theorem isLow_of_mem_lowerFrom {afterCased : Bool} {text : List Char} {d : Char}
    (h : d ∈ lowerFrom afterCased text) : IsLow d ∧ (d ∈ text ∨ IsLetter d) := by
  induction text generalizing afterCased with
  | nil => cases h
  | cons c text ih =>
    obtain ⟨letters, after, hlower, -, hletters⟩ := exists_lowerFrom_cons afterCased c text
    rw [hlower, List.mem_append] at h
    rcases h with h | h
    · obtain ⟨hlow, hnew⟩ := hletters d h
      exact ⟨hlow, hnew.imp_left fun hd : d = c => hd ▸ List.mem_cons_self⟩
    · obtain ⟨hlow, hnew⟩ := ih h
      exact ⟨hlow, hnew.imp_left (List.mem_cons_of_mem _)⟩

/-- What the lower-case form of a text has and the text does not have is a letter. -/
theorem mem_lower {text : List Char} {d : Char} (h : d ∈ lower text) : d ∈ text ∨ IsLetter d :=
  (isLow_of_mem_lowerFrom h).2

/-- A text in lower case is its own lower-case form. -/
theorem lower_eq_self {text : List Char} (h : ∀ c ∈ text, IsLow c) : lower text = text :=
  (lowerFrom_eq_map (f := id) h false).trans (List.map_id _)

/-- The lower-case form of a text stays as it is. -/
theorem lower_lower (text : List Char) : lower (lower text) = lower text :=
  lower_eq_self fun _ hc => (isLow_of_mem_lowerFrom hc).1

/-- The lower-case form of a text stays as it is. -/
theorem lowered_lowered (text : String) : lowered (lowered text) = lowered text := by
  rw [lowered, lowered, String.toList_ofList, lower_lower]

end CueSheet.Text
