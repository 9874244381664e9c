import CueSheet.Namespace
import CueSheet.Proofs.Text.Lower

/-!
# What namespaces know

A namespace that comes from a constructor and from adding names holds its plain names in lower case
(`Namespace.IsReached.lower_eq`). More names are added by taking all plain names in lower case once
more, which leaves the ones that are there as they are; so with more names it knows these and what it
knew before (`Namespace.IsReached.isKnown_withNames`), and this goes on along a chain of additions
(`Namespace.IsReached.isKnown_scanl`).
-/

namespace CueSheet

open Text (lowered)

namespace Spelling

/-! ## Lower case -/

/-- Characters at the start of a spelling continue the run in front of them. -/
theorem lowerFrom_ofChars_append (run text : List Char) (rest : Spelling) :
    lowerFrom run (ofChars text ++ rest) = lowerFrom (text.reverse ++ run) rest := by
  induction text generalizing run with
  | nil => rfl
  | cons c text ih =>
    rw [List.reverse_cons, List.append_assoc]
    exact ih (c :: run)

/-- The lower-case form of a spelling stays as it is. A run of characters is in lower case up to the
next half, and the half ends it again. -/
theorem lower_lowerFrom (run : List Char) (spelling : Spelling) :
    lower (lowerFrom run spelling) = lowerFrom run spelling := by
  induction spelling generalizing run with
  | nil =>
    rw [lowerFrom, lower, lowerFrom_ofChars, List.reverse_nil, List.nil_append, Text.lower_lower]
  | cons sign spelling ih =>
    cases sign with
    | char c => exact ih (c :: run)
    | half n =>
      have hrest : lowerFrom [] (lowerFrom [] spelling) = lowerFrom [] spelling := ih []
      rw [lowerFrom, lower, lowerFrom_ofChars_append, List.append_nil, lowerFrom,
        List.reverse_reverse, Text.lower_lower, hrest]

/-- The lower-case form of a spelling stays as it is. -/
theorem lower_lower (spelling : Spelling) : lower (lower spelling) = lower spelling :=
  lower_lowerFrom [] spelling

end Spelling

namespace Namespace

/-- A namespace comes from a constructor and from adding names any number of times. -/
inductive IsReached : Namespace → Prop where
  /-- The spellings of plain names and of names with a category make a namespace. -/
  | made (names : List Spelling) (categorized : List (Spelling × Spelling)) :
    IsReached (.ofSpellings names categorized)
  /-- More names are added to one. -/
  | extended {ns : Namespace} (h : IsReached ns) (names : List String) :
    IsReached (ns.withNames names)

variable {ns : Namespace} {names : List String} {lists : List (List String)}

/-! ## Lookups -/

/-- A name is looked up as its lower-case form is. -/
theorem key_lowered (name : String) : key (lowered name) = key name := by
  rw [key, Text.lowered_lowered, key]

/-- The lower-case form of what a name is looked up as is the same. -/
theorem lower_key (name : String) : (key name).lower = key name := by
  rw [key, Spelling.lower_ofString, Text.lowered_lowered]

/-- Names are looked up alike exactly if they have one lower-case form. -/
theorem key_inj {name other : String} : key name = key other ↔ lowered name = lowered other :=
  ⟨Spelling.ofString_injective, congrArg Spelling.ofString⟩

/-- Letter case makes no difference to a lookup. -/
theorem isKnown_lowered (ns : Namespace) (name : String) (category : Option String) :
    ns.isKnown (lowered name) (category.map lowered) = ns.isKnown name category := by
  unfold isKnown
  rw [key_lowered]
  split
  · rfl
  · next known _ => cases category <;> simp [key_lowered]

/-! ## More names -/

/-- An element is inserted beside the others. -/
theorem mem_insertOnce {all : List Spelling} {name other : Spelling} :
    other ∈ insertOnce all name ↔ other ∈ all ∨ other = name := by
  unfold insertOnce
  split_ifs with hmem
  · rw [or_iff_left_of_imp]
    rintro rfl
    exact List.contains_iff_mem.1 hmem
  · rw [List.mem_append, List.mem_singleton]

/-- Elements are inserted one after the other. -/
theorem mem_foldl_insertOnce {all more : List Spelling} {other : Spelling} :
    other ∈ more.foldl insertOnce all ↔ other ∈ all ∨ other ∈ more := by
  induction more generalizing all with
  | nil => simp
  | cons name more ih => rw [List.foldl_cons, ih, mem_insertOnce, List.mem_cons, or_assoc]

/-- The plain names are in lower case. -/
theorem IsReached.lower_eq (h : ns.IsReached) : ∀ name ∈ ns.plain, name.lower = name := by
  have hlower (all : List Spelling) :
      ∀ name ∈ (all.map Spelling.lower).foldl insertOnce [], name.lower = name := by
    intro name hname
    obtain hnil | hmem := mem_foldl_insertOnce.1 hname
    · cases hnil
    · obtain ⟨other, -, rfl⟩ := List.mem_map.1 hmem
      exact Spelling.lower_lower other
  cases h with
  | made names => exact hlower names
  | @extended ns _ names => exact hlower (ns.plain ++ names.map key)

/-- More names are plain beside those that are plain already. -/
theorem IsReached.mem_plain_withNames (h : ns.IsReached) {name : String} :
    key name ∈ (ns.withNames names).plain ↔
      key name ∈ ns.plain ∨ lowered name ∈ names.map lowered := by
  have hplain : ns.plain.map Spelling.lower = ns.plain :=
    (List.map_congr_left h.lower_eq).trans (List.map_id _)
  have hnames : (names.map key).map Spelling.lower = names.map key := by
    rw [List.map_map]
    refine List.map_congr_left fun name _ => ?_
    rw [Function.comp_apply, lower_key]
  rw [withNames, mem_foldl_insertOnce, List.map_append, hplain, hnames]
  simp only [List.not_mem_nil, false_or, List.mem_append, List.mem_map, key_inj]

/-- With more names a namespace knows these and what it knew before. -/
theorem IsReached.isKnown_withNames (h : ns.IsReached) (names : List String) (name : String)
    (category : Option String) : (ns.withNames names).isKnown name category = true ↔
      lowered name ∈ names.map lowered ∨ ns.isKnown name category = true := by
  unfold isKnown
  rw [Bool.or_eq_true, Bool.or_eq_true, List.contains_iff_mem, List.contains_iff_mem,
    h.mem_plain_withNames, or_assoc, or_left_comm]
  rfl

/-- At the end of a chain of additions all names that have been added are known, and what was known
before. -/
theorem IsReached.isKnown_foldl (h : ns.IsReached) (lists : List (List String)) (name : String)
    (category : Option String) : (lists.foldl withNames ns).isKnown name category = true ↔
      lowered name ∈ lists.flatten.map lowered ∨ ns.isKnown name category = true := by
  induction lists generalizing ns with
  | nil => simp
  | cons names lists ih =>
    rw [List.foldl_cons, ih (h.extended names), h.isKnown_withNames, List.flatten_cons,
      List.map_append, List.mem_append, ← or_assoc, or_comm (b := lowered name ∈ names.map lowered)]

/-- Each namespace of a chain of additions knows the names that have been added up to it and what the
first one knows, whatever is added later. -/
theorem IsReached.isKnown_scanl (h : ns.IsReached) (lists : List (List String)) {i : ℕ}
    {reached : Namespace} (hreached : (lists.scanl withNames ns)[i]? = some reached) (name : String)
    (category : Option String) : reached.isKnown name category = true ↔
      lowered name ∈ (lists.take i).flatten.map lowered ∨ ns.isKnown name category = true := by
  obtain ⟨hi, rfl⟩ := List.getElem?_eq_some_iff.1 hreached
  rw [List.getElem_scanl, h.isKnown_foldl]

end Namespace

end CueSheet
