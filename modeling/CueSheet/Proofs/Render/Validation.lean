import CueSheet.Proofs.Render.Lines

/-!
# What is read back is judged alike

A cue that is read back differs from the cue that was written in the kind of the numbers of its stored
times only, and the rule for stored times refuses no finite number of at least zero. So the problems
of the two cues are the same (`Cue.ReadsBack.cueProblems_eq`), and so is what the two mean: they are
the same cue wherever numbers are compared as quantities (`Cue.ReadsBack.same`).
-/

namespace CueSheet

namespace Validation

variable {params reads : Params} {key : String}

/-- A parameter that is no stored time is read back under its key with the same value. -/
theorem lookup_readsBack (h : List.Forall₂ ReadsBack params reads) (hkey : key ∉ beatKeys) :
    reads.lookup key = params.lookup key := by
  induction h with
  | nil => rfl
  | @cons param read params reads hfirst _ ih =>
    obtain ⟨paramKey, value⟩ := param
    obtain ⟨readKey, value'⟩ := read
    obtain rfl : readKey = paramKey := hfirst.key
    -- The first parameter with the key is the same one on both sides.
    by_cases hsame : key = readKey
    · subst hsame
      rw [List.lookup_cons_self, List.lookup_cons_self, show value' = value from hfirst.value hkey]
    · rw [List.lookup_cons, List.lookup_cons, beq_false_of_ne hsame]
      exact ih

/-- A stored time that is a number of at least zero has no problem. -/
theorem parameterProblems_time {x : Number} {q : ℚ} (hkey : key ∈ beatKeys)
    (hnumeric : x.isNumeric = true) (hx : x.toRat? = some q) (hq : 0 ≤ q) :
    parameterProblems key (.number x) = .ok [] := by
  have hfinite : x.isFinite = true := Number.isFinite_iff.2 ⟨q, hx⟩
  have hbelow : x.isNegative = false := by
    rw [← Bool.not_eq_true, Number.isNegative_iff hx]
    exact not_lt.2 hq
  unfold parameterProblems
  rw [if_neg (by simp [Value.isFinite, hnumeric, hfinite]), if_pos (List.contains_iff_mem.2 hkey),
    if_neg (by simp [isBelowZero, Value.isNumeric, Value.number?, hnumeric, hbelow])]
  rfl

/-- A parameter that is read back has the problems of the one that was written. -/
theorem parameterProblems_readsBack {param read : String × Value} (h : ReadsBack param read) :
    parameterProblems param.1 param.2 = parameterProblems read.1 read.2 := by
  rw [h.key]
  by_cases hkey : param.1 ∈ beatKeys
  · obtain ⟨x, q, hvalue, hnumeric, hx, hq, hread⟩ := h.time hkey
    rw [hvalue, hread, parameterProblems_time hkey hnumeric hx hq,
      parameterProblems_time hkey rfl rfl hq]
  · rw [h.value hkey]

end Validation

namespace Cue.ReadsBack

variable {cue read : Cue}

/-- A cue that is read back has the problems of the one that was written. -/
theorem cueProblems_eq (h : cue.ReadsBack read) (maxRepeat : ℕ) (names : Option Namespace) :
    Validation.cueProblems maxRepeat names read = Validation.cueProblems maxRepeat names cue := by
  -- The checks by key look at parameters that are no stored times.
  have hproblemsAt {key : String} (hkey : key ∉ Validation.beatKeys)
      (check : Value → Except Fault (List Problem)) :
      Validation.problemsAt read.params key check = Validation.problemsAt cue.params key check := by
    rw [Validation.problemsAt, Validation.problemsAt, Validation.lookup_readsBack h.params hkey]
  have hname : Validation.nameProblems names read = Validation.nameProblems names cue := by
    rw [Validation.nameProblems, Validation.nameProblems, h.name, h.category]
  have hunits : Validation.gather
      (fun key => Validation.problemsAt read.params key (Validation.unitProblems key))
        Validation.unitKeys =
      Validation.gather
      (fun key => Validation.problemsAt cue.params key (Validation.unitProblems key))
        Validation.unitKeys := by
    simp only [Validation.gather, Validation.unitKeys, List.mapM_cons, List.mapM_nil,
      hproblemsAt (show "intensity" ∉ Validation.beatKeys by decide),
      hproblemsAt (show "volume" ∉ Validation.beatKeys by decide)]
  have hparams : cue.params.mapM (fun param => Validation.parameterProblems param.1 param.2) =
      read.params.mapM (fun param => Validation.parameterProblems param.1 param.2) :=
    mapM_eq_of_forall₂ (h.params.imp fun _ _ => Validation.parameterProblems_readsBack)
  unfold Validation.cueProblems
  rw [hproblemsAt (by decide), hunits, hproblemsAt (by decide), hname]
  simp only [Validation.gather, hparams]

end Cue.ReadsBack

/-! ## What is the same -/

/-- A value that can stand in a document and is finite if it is a quantity is the same as itself. -/
theorem Value.same_self {value : Value} (hplain : value.IsPlain)
    (hfinite : ∀ x, value = .number x → x.isFinite = true) : value.same value = true := by
  cases value with
  | null | list | record => exact hplain.elim
  | text s => exact same_text_iff.2 rfl
  | number x =>
    obtain ⟨q, hq⟩ := Number.isFinite_iff.1 (hfinite x rfl)
    exact (Number.eq_iff hq hq).2 rfl

/-- An accepted parameter that is read back is the same. -/
theorem ReadsBack.sameMember {param read : String × Value} (haccepted : IsAcceptedParam param)
    (h : ReadsBack param read) : Value.SameMember param read := by
  refine ⟨h.key.symm, ?_⟩
  by_cases hkey : param.1 ∈ Validation.beatKeys
  · obtain ⟨x, q, hvalue, -, hx, -, hread⟩ := h.time hkey
    rw [hvalue, hread]
    exact (Number.eq_iff hx rfl).2 rfl
  · rw [h.value hkey]
    exact Value.same_self haccepted.plain haccepted.finite

/-- An accepted cue that is read back is the same. -/
theorem Cue.ReadsBack.same {cue read : Cue} (haccepted : cue.IsAccepted) (h : cue.ReadsBack read) :
    cue.Same read := by
  refine ⟨h.name.symm, h.category.symm, ?_, h.args.symm⟩
  exact forall₂_of_mem h.params fun param read hparam hback =>
    hback.sameMember (haccepted.params param hparam)

/-- An accepted item that is read back is the same. -/
theorem Item.ReadsBack.same {item read : Item} (haccepted : item.IsAccepted)
    (h : item.ReadsBack read) : item.Same read := by
  cases item <;> cases read <;>
    first | exact h.elim | exact Eq.symm h | exact Cue.ReadsBack.same haccepted h

/-- Sections that are read back are the same, if all identifiers are those that the labels are
allocated. -/
theorem Section.same_of_readsBack {sections reads : List Section}
    (haccepted : ∀ part ∈ sections, ∀ item ∈ part.items, item.IsAccepted)
    (h : List.Forall₂ Section.ReadsBack sections reads)
    (hids : sections.map (·.id) = SectionId.allocateAll (sections.map (·.label)))
    (hreads : reads.map (·.id) = SectionId.allocateAll (reads.map (·.label))) :
    List.Forall₂ Section.Same sections reads := by
  -- Identifiers are allocated from the labels, and the labels are the same.
  have hlabels : reads.map (·.label) = sections.map (·.label) := by
    clear hids hreads haccepted
    induction h with
    | nil => rfl
    | cons hfirst _ ih => rw [List.map_cons, List.map_cons, hfirst.label, ih]
  have hsame : sections.map (·.id) = reads.map (·.id) := by rw [hids, hreads, hlabels]
  clear hids hreads hlabels
  induction h with
  | nil => exact .nil
  | cons hfirst _ ih =>
    rw [List.forall_mem_cons] at haccepted
    rw [List.map_cons, List.map_cons, List.cons.injEq] at hsame
    refine .cons ⟨hsame.1, hfirst.label.symm, ?_⟩ (ih haccepted.2 hsame.2)
    exact forall₂_of_mem hfirst.items fun item read hitem hback =>
      hback.same (haccepted.1 item hitem)

end CueSheet
