import Mathlib.Data.List.Nodup
import Mathlib.Data.List.Induction
import Mathlib.Data.Nat.Find
import Std.Data.String.ToNat
import CueSheet.SectionId

/-!
# Identifiers are different, and their numbers are least

A label is given its slug, or else the slug with the least number from two on that is not in use
(`SectionId.IsNext`). The definition looks for this number among as many candidates as there are
identifiers. Slugs with different numbers are different, so not all of these candidates and the slug
itself can be in use (`SectionId.exists_free`), and the search that goes on as long as a candidate is
in use (`SectionId.Searches`) ends within the bound, with the same identifier.
-/

namespace CueSheet.SectionId

/-- The search for an identifier, from a candidate and the number that the next one has: as long as
the candidate is in use, the slug with that number takes its place. It ends after a number of rounds
with an identifier. -/
inductive Searches (used : List String) (slug : String) : String → ℕ → ℕ → String → Prop where
  /-- A candidate that is not in use is the identifier. -/
  | found {candidate : String} (number : ℕ) (h : candidate ∉ used) :
    Searches used slug candidate number 0 candidate
  /-- A candidate that is in use gives way to the next one. -/
  | taken {candidate id : String} {number rounds : ℕ} (h : candidate ∈ used)
    (hrest : Searches used slug (numbered slug number) (number + 1) rounds id) :
    Searches used slug candidate number (rounds + 1) id

/-- An identifier is the one that a label is given while others are in use. -/
structure IsNext (used : List String) (label id : String) : Prop where
  /-- It is the slug of the label, if the slug is not in use. -/
  bare : slug label ∉ used → id = slug label
  /-- Otherwise it is the slug with the least number from two on that is not in use. -/
  numbered : slug label ∈ used → ∃ n, 2 ≤ n ∧ id = numbered (slug label) n ∧ id ∉ used ∧
    ∀ m, 2 ≤ m → m < n → SectionId.numbered (slug label) m ∈ used
  /-- The search from the slug on ends with it, after at most as many rounds as there are
  identifiers in use. -/
  search : ∃ rounds ≤ used.length, Searches used (slug label) (slug label) 2 rounds id

/-- Identifiers are given to labels one after the other. -/
structure AreAllocated (labels ids : List String) : Prop where
  /-- Each label is given one. -/
  length : ids.length = labels.length
  /-- A label is given the next one behind those of the labels before it. -/
  next : ∀ (i : ℕ) (h : i < labels.length) (h' : i < ids.length), IsNext (ids.take i) labels[i] ids[i]

variable {used : List String} {slug label id : String}

/-! ## Candidates -/

/-- A slug with a number is the slug, a hyphen and the digits of the number. -/
theorem numbered_eq (slug : String) (n : ℕ) : numbered slug n = slug ++ "-" ++ n.repr := rfl

/-- A slug with a number is longer than the slug. -/
theorem numbered_ne (slug : String) (n : ℕ) : numbered slug n ≠ slug := by
  intro h
  have hhyphen : "-".length = 1 := rfl
  have hlength := congrArg String.length h
  rw [numbered_eq, String.length_append, String.length_append] at hlength
  omega

/-- Slugs with different numbers are different. -/
theorem numbered_injective (slug : String) : Function.Injective (numbered slug) := by
  intro m n h
  have hdigits := congrArg String.toList h
  simp only [numbered_eq, String.toList_append, List.append_cancel_left_eq] at hdigits
  exact Nat.repr_inj.1 (String.toList_inj.1 hdigits)

/-- If a slug is in use, it is free with one of so many numbers as there are identifiers in use:
otherwise all of these and the slug would be more than there are. -/
theorem exists_free (hslug : slug ∈ used) : ∃ k < used.length, numbered slug (k + 2) ∉ used := by
  by_contra! hall
  have hdistinct : (slug :: (List.range used.length).map fun k => numbered slug (k + 2)).Nodup := by
    refine List.nodup_cons.2 ⟨?_, ?_⟩
    · rw [List.mem_map]
      rintro ⟨k, -, hk⟩
      exact numbered_ne slug _ hk
    · refine List.nodup_range.map fun i j hij => ?_
      exact Nat.add_right_cancel (numbered_injective slug hij)
  have hsubset : (slug :: (List.range used.length).map fun k => numbered slug (k + 2)) ⊆ used := by
    refine List.cons_subset.2 ⟨hslug, fun id hid => ?_⟩
    obtain ⟨k, hk, rfl⟩ := List.mem_map.1 hid
    exact hall k (List.mem_range.1 hk)
  have hlength := hdistinct.length_le_of_subset hsubset
  rw [List.length_cons, List.length_map, List.length_range] at hlength
  omega

/-- The least number with which a slug in use is free. -/
theorem exists_least (hslug : slug ∈ used) : ∃ k < used.length,
    numbered slug (k + 2) ∉ used ∧ ∀ j < k, numbered slug (j + 2) ∈ used := by
  have hfree : ∃ k, numbered slug (k + 2) ∉ used := by
    obtain ⟨k, -, hk⟩ := exists_free hslug
    exact ⟨k, hk⟩
  classical
  refine ⟨Nat.find hfree, ?_, Nat.find_spec hfree, fun j hj => not_not.1 (Nat.find_min hfree hj)⟩
  obtain ⟨k, hlt, hk⟩ := exists_free hslug
  exact Nat.lt_of_le_of_lt (Nat.find_min' hfree hk) hlt

/-- The bounded search finds the least number. -/
theorem firstFree_of_least {k : ℕ} (hlt : k < used.length) (hfree : numbered slug (k + 2) ∉ used)
    (htaken : ∀ j < k, numbered slug (j + 2) ∈ used) : firstFree used slug = numbered slug (k + 2) := by
  have hsplit : List.range used.length =
      List.range k ++ k :: List.range' (k + 1) (used.length - (k + 1)) := by
    have hcount : used.length = k + (used.length - (k + 1) + 1) := by omega
    have happend := List.range'_append_1 (s := 0) (m := k) (n := used.length - (k + 1) + 1)
    rwa [← hcount, Nat.zero_add, List.range'_succ, ← List.range_eq_range', ← List.range_eq_range',
      eq_comm] at happend
  rw [firstFree_eq, hsplit, List.findSome?_append, List.findSome?_eq_none_iff.2]
  · simp [hfree]
  · intro j hj
    simp [htaken j (List.mem_range.1 hj)]

/-- The search from a candidate on passes over the numbers that are in use. -/
theorem searches_numbered {n rounds : ℕ} (hfree : numbered slug (n + rounds) ∉ used)
    (htaken : ∀ m, n ≤ m → m < n + rounds → numbered slug m ∈ used) :
    Searches used slug (numbered slug n) (n + 1) rounds (numbered slug (n + rounds)) := by
  induction rounds generalizing n with
  | zero => exact .found _ hfree
  | succ rounds ih =>
    refine .taken (htaken n le_rfl (by omega)) ?_
    have hshift : n + (rounds + 1) = n + 1 + rounds := by omega
    rw [hshift] at hfree htaken ⊢
    exact ih hfree fun m hm hlt => htaken m (by omega) hlt

/-! ## Allocation -/

/-- A label is given the next identifier. -/
theorem isNext_allocate (used : List String) (label : String) :
    IsNext used label (allocate used label) := by
  by_cases hslug : SectionId.slug label ∈ used
  · obtain ⟨k, hlt, hfree, htaken⟩ := exists_least hslug
    have hid : allocate used label = SectionId.numbered (SectionId.slug label) (k + 2) := by
      rw [allocate, if_pos (List.contains_iff_mem.2 hslug), firstFree_of_least hlt hfree htaken]
    have hbelow : ∀ m, 2 ≤ m → m < k + 2 →
        SectionId.numbered (SectionId.slug label) m ∈ used := by
      intro m hm hmk
      have := htaken (m - 2) (by omega)
      rwa [Nat.sub_add_cancel hm] at this
    rw [hid]
    refine ⟨fun hnot => absurd hslug hnot, fun _ => ⟨k + 2, by omega, rfl, hfree, hbelow⟩, ?_⟩
    refine ⟨k + 1, hlt, .taken hslug ?_⟩
    rw [Nat.add_comm k 2] at hfree hbelow ⊢
    exact searches_numbered hfree hbelow
  · have hid : allocate used label = SectionId.slug label := by
      rw [allocate, if_neg (by simpa using hslug)]
    rw [hid]
    exact ⟨fun _ => rfl, fun hmem => absurd hmem hslug, 0, Nat.zero_le _, .found _ hslug⟩

/-- The next identifier is not in use. -/
theorem IsNext.not_mem (h : IsNext used label id) : id ∉ used := by
  by_cases hslug : SectionId.slug label ∈ used
  · obtain ⟨n, -, -, hfree, -⟩ := h.numbered hslug
    exact hfree
  · rwa [h.bare hslug]

/-- The last label is given its identifier behind all the others. -/
theorem allocateAll_concat (labels : List String) (label : String) :
    allocateAll (labels ++ [label]) = allocateAll labels ++ [allocate (allocateAll labels) label] := by
  rw [allocateAll, List.foldl_append, ← allocateAll]
  rfl

/-- Labels are given identifiers one after the other. -/
theorem areAllocated_allocateAll (labels : List String) :
    AreAllocated labels (allocateAll labels) := by
  induction labels using List.reverseRecOn with
  | nil => exact ⟨rfl, fun i h => absurd h (Nat.not_lt_zero i)⟩
  | append_singleton labels label ih =>
    rw [allocateAll_concat]
    refine ⟨by simp [ih.length], fun i h h' => ?_⟩
    rcases Nat.lt_or_ge i labels.length with hi | hi
    · -- What stands before an earlier label is as it was.
      have hi' : i < (allocateAll labels).length := ih.length ▸ hi
      rw [List.take_append_of_le_length (Nat.le_of_lt hi'), List.getElem_append_left hi,
        List.getElem_append_left hi']
      exact ih.next i hi hi'
    · obtain rfl : i = labels.length := by simp at h; omega
      simp [← ih.length, isNext_allocate]

/-- All identifiers are different. -/
theorem nodup_allocateAll (labels : List String) : (allocateAll labels).Nodup := by
  induction labels using List.reverseRecOn with
  | nil => exact List.nodup_nil
  | append_singleton labels label ih =>
    rw [allocateAll_concat, ← List.concat_eq_append]
    exact ih.concat (isNext_allocate _ label).not_mem

end CueSheet.SectionId
