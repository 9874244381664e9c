import Mathlib.Data.List.DropRight
import CueSheet.Proofs.Text.Lower
import CueSheet.Proofs.Text.Pieces
import CueSheet.SectionId

/-!
# Slugs are a normal form

A slug is made of the lower-case form of a label in four passes: punctuation is dropped, blanks and
low lines become hyphens, one hyphen is left of every run of hyphens, and those at the ends go. What
the passes do together is said in one step (`slugOf_eq`): what is kept of the label falls into runs
between blanks, low lines and hyphens, and single hyphens join the runs. The shape of a slug follows
from this (`isSlug_slugOf`), and so does that a slug is its own slug (`slugOf_slugOf`).
-/

namespace CueSheet.SectionId

open Text (isBlank lower runs pieces)

/-- Whether a character is a hyphen. -/
def isHyphen (c : Char) : Bool := c == '-'

/-- Whether a character that is kept stands between the runs of a label. -/
def isJoint (c : Char) : Bool := isBlank c || c == '_' || c == '-'

/-- The runs of a label, in lower case and without punctuation. -/
def runsOf (label : List Char) : List (List Char) := runs isJoint ((lower label).filter isKept)

/-- A text has the shape of a slug. -/
structure IsSlug (slug : List Char) : Prop where
  /-- It is not empty. -/
  ne_nil : slug ≠ []
  /-- It has no blanks and no low lines. -/
  bare : ∀ c ∈ slug, isBlank c = false ∧ c ≠ '_'
  /-- Its hyphens are single. -/
  single : ¬['-', '-'] <:+: slug
  /-- It does not start with a hyphen. -/
  head : slug.head? ≠ some '-'
  /-- It does not end with a hyphen. -/
  last : slug.getLast? ≠ some '-'

variable {text label : List Char}

/-- Other characters are no hyphens. -/
theorem isHyphen_of_ne {c : Char} (hc : c ≠ '-') : isHyphen c = false := by
  simpa [isHyphen] using hc

/-! ## The passes over a label -/

/-- Squeezing keeps the first character. -/
theorem head?_squeeze (text : List Char) : (squeeze text).head? = text.head? := by
  cases text with
  | nil => rfl
  | cons c text =>
    unfold squeeze
    dsimp only
    split_ifs with h
    · rw [h.2, List.head?_cons, h.1]
    · rfl

/-- Squeezing in front of a hyphen adds nothing to a text that starts with one. -/
theorem squeeze_hyphen (text : List Char) :
    squeeze ('-' :: text) =
      if text.head? = some '-' then squeeze text else '-' :: squeeze text := by
  rw [squeeze]
  simp only [true_and, head?_squeeze]

/-- Squeezing keeps a character other than a hyphen. -/
theorem squeeze_of_ne {c : Char} (text : List Char) (hc : c ≠ '-') :
    squeeze (c :: text) = c :: squeeze text := by
  rw [squeeze]
  simp only [hc, false_and, if_false]

/-- Hyphens at the start can be dropped before or after the others are squeezed. -/
theorem dropWhile_squeeze (text : List Char) :
    (squeeze text).dropWhile isHyphen = squeeze (text.dropWhile isHyphen) := by
  induction text with
  | nil => rfl
  | cons c text ih =>
    by_cases hc : c = '-'
    · subst hc
      rw [squeeze_hyphen, List.dropWhile_cons_of_pos (by rfl), ← ih]
      split_ifs
      · rfl
      · exact List.dropWhile_cons_of_pos (by rfl)
    · have hbare := isHyphen_of_ne hc
      rw [squeeze_of_ne text hc, List.dropWhile_cons_of_neg (by simp [hbare]),
        List.dropWhile_cons_of_neg (by simp [hbare]), squeeze_of_ne text hc]

/-- Hyphens at the start belong to no run. -/
theorem runs_dropWhile (text : List Char) :
    runs isHyphen (text.dropWhile isHyphen) = runs isHyphen text := by
  induction text with
  | nil => rfl
  | cons c text ih =>
    by_cases hc : isHyphen c = true
    · rw [List.dropWhile_cons_of_pos hc, ih, Text.runs_separator text hc]
    · rw [List.dropWhile_cons_of_neg hc]

/-- What is dropped at the end of a text is dropped behind its first character, and this one too if
nothing is left behind it. -/
theorem rdropWhile_cons (p : Char → Bool) (c : Char) (text : List Char) :
    (c :: text).rdropWhile p =
      if p c = true ∧ text.rdropWhile p = [] then [] else c :: text.rdropWhile p := by
  have hempty : text.reverse.dropWhile p = [] ↔ text.rdropWhile p = [] := by
    rw [List.rdropWhile, List.reverse_eq_nil_iff]
  rw [List.rdropWhile, List.reverse_cons, List.dropWhile_append]
  by_cases hrest : text.rdropWhile p = []
  · rw [if_pos (List.isEmpty_iff.2 (hempty.2 hrest)), hrest]
    by_cases hc : p c = true <;> simp [hc]
  · rw [if_neg (by rwa [List.isEmpty_iff, hempty]), if_neg fun h => hrest h.2, List.reverse_append]
    rfl

/-- Nothing is made up of runs only if there are none. -/
theorem intercalate_runs_eq_nil_iff {isSeparator : Char → Bool} {between : List Char} :
    between.intercalate (runs isSeparator text) = [] ↔ runs isSeparator text = [] := by
  refine ⟨fun h => ?_, fun h => by rw [h, List.intercalate_nil]⟩
  by_contra hne
  obtain ⟨run, hrun⟩ := List.exists_mem_of_ne_nil _ hne
  obtain ⟨c, hc⟩ := List.exists_mem_of_ne_nil _ (Text.of_mem_runs hrun).1
  exact List.ne_nil_of_mem (Text.mem_intercalate_of_mem hrun hc) h

/-- A character other than a hyphen stands in front of the runs with single hyphens between them. A
hyphen behind it ends its run, and stays between this run and the next one if there is one. -/
theorem intercalate_runs_cons {c : Char} (hc : c ≠ '-') (text : List Char) :
    ['-'].intercalate (runs isHyphen (c :: text)) =
      c :: ((if text.head? = some '-' ∧ runs isHyphen text ≠ [] then ['-'] else []) ++
        ['-'].intercalate (runs isHyphen text)) := by
  have hbare := isHyphen_of_ne hc
  cases text with
  | nil =>
    rw [Text.runs_single hbare (by simp)]
    rfl
  | cons d text =>
    by_cases hd : d = '-'
    · subst hd
      rw [Text.runs_single hbare (by simp [isHyphen])]
      cases hruns : runs isHyphen ('-' :: text) with
      | nil => rfl
      | cons run others => simp [List.intercalate_cons_cons]
    · obtain ⟨run, others, hrun, hjoined⟩ := Text.runs_joined text hbare (isHyphen_of_ne hd)
      have hnext : ¬((d :: text).head? = some '-' ∧ run :: others ≠ []) := by simp [hd]
      rw [hrun, hjoined, if_neg hnext, List.nil_append]
      cases others with
      | nil => rfl
      | cons second others => simp [List.intercalate_cons_cons]

/-- A text whose hyphens are squeezed and dropped at the end is made of its runs with single hyphens
between them, and a hyphen in front of them if it starts with one. -/
theorem rdropWhile_squeeze (text : List Char) :
    (squeeze text).rdropWhile isHyphen =
      (if text.head? = some '-' ∧ runs isHyphen text ≠ [] then ['-'] else []) ++
        ['-'].intercalate (runs isHyphen text) := by
  induction text with
  | nil => rfl
  | cons c text ih =>
    by_cases hc : c = '-'
    · subst hc
      rw [squeeze_hyphen, Text.runs_separator text (by rfl)]
      by_cases hhead : text.head? = some '-'
      · rw [if_pos hhead, ih]
        simp only [hhead, List.head?_cons]
      · have hlone : ¬(text.head? = some '-' ∧ runs isHyphen text ≠ []) := fun h => hhead h.1
        rw [if_neg hhead, rdropWhile_cons, ih, if_neg hlone, List.nil_append]
        simp only [intercalate_runs_eq_nil_iff]
        by_cases hruns : runs isHyphen text = [] <;> simp [hruns, isHyphen]
    · have hkept : ¬(isHyphen c = true ∧ (squeeze text).rdropWhile isHyphen = []) := by
        simp [isHyphen_of_ne hc]
      have hfront : ¬((c :: text).head? = some '-' ∧ runs isHyphen (c :: text) ≠ []) := by
        simp [hc]
      rw [squeeze_of_ne text hc, rdropWhile_cons, if_neg hkept, ih, if_neg hfront,
        List.nil_append, intercalate_runs_cons hc]

/-- Squeezing and trimming leave the runs between hyphens with single hyphens between them. -/
theorem trim_squeeze (text : List Char) :
    trim (squeeze text) = ['-'].intercalate (runs isHyphen text) := by
  have hstart : (text.dropWhile isHyphen).head? ≠ some '-' := fun h => by
    have hnot := List.head?_dropWhile_not isHyphen text
    rw [h] at hnot
    cases hnot
  have htrim : trim (squeeze text) =
      ((squeeze text).dropWhile isHyphen).rdropWhile isHyphen := rfl
  rw [htrim, dropWhile_squeeze, rdropWhile_squeeze, if_neg fun h => hstart h.1, List.nil_append,
    runs_dropWhile]

/-- Hyphenation turns the characters between runs into hyphens. -/
theorem isHyphen_hyphenate (c : Char) : isHyphen (hyphenate c) = isJoint c := by
  unfold isHyphen hyphenate isJoint
  cases h : isBlank c || c == '_' <;> simp

/-- Other characters are left as they are. -/
theorem hyphenate_of_not_isJoint {c : Char} (h : isJoint c = false) : hyphenate c = c := by
  unfold isJoint at h
  rw [hyphenate, if_neg (by rw [(Bool.or_eq_false_iff.1 h).1]; exact Bool.false_ne_true)]

/-- A slug is made of the runs of the label with single hyphens between them. -/
theorem slugOf_eq (label : List Char) :
    slugOf label =
      if runsOf label = [] then "section".toList else ['-'].intercalate (runsOf label) := by
  have hpasses : trim (squeeze (((lower label).filter isKept).map hyphenate)) =
      ['-'].intercalate (runsOf label) := by
    rw [trim_squeeze, runs, Text.pieces_map isHyphen_hyphenate fun _ => hyphenate_of_not_isJoint]
    rfl
  have hempty : ['-'].intercalate (runsOf label) = [] ↔ runsOf label = [] :=
    intercalate_runs_eq_nil_iff
  unfold slugOf
  rw [hpasses]
  split
  · next h => rw [if_pos (hempty.1 h)]
  · next h => rw [if_neg (hempty.not.1 h)]

/-! ## The shape of slugs -/

/-- A run has no character that stands between runs, and is made of kept letters in lower case. -/
theorem of_mem_runsOf {run : List Char} (h : run ∈ runsOf label) :
    run ≠ [] ∧ ∀ c ∈ run, (c ∈ lower label ∧ isKept c = true) ∧ isJoint c = false := by
  obtain ⟨hne, hrun⟩ := Text.of_mem_runs h
  exact ⟨hne, fun c hc => ⟨List.mem_filter.1 (hrun c hc).1, (hrun c hc).2⟩⟩

/-- Texts without hyphens that are not empty have the shape of a slug with single hyphens between
them. -/
theorem isSlug_intercalate {rs : List (List Char)} (hne : rs ≠ [])
    (h : ∀ run ∈ rs, run ≠ [] ∧ ∀ c ∈ run, isJoint c = false) : IsSlug (['-'].intercalate rs) := by
  have hpieces : pieces isJoint (['-'].intercalate rs) = rs :=
    Text.pieces_intercalate (by rfl) hne fun run hrun => (h run hrun).2
  -- Two hyphens with nothing between them, or one at an end, would be beside an empty piece.
  have hfull (front back : List Char) (heq : ['-'].intercalate rs = front ++ '-' :: back) :
      [] ∉ pieces isJoint front ++ pieces isJoint back := by
    rw [heq, Text.pieces_append_cons front back (by rfl)] at hpieces
    rw [hpieces]
    exact fun hmem => (h [] hmem).1 rfl
  refine ⟨fun hnil => ?_, fun c hc => ?_, ?_, fun hhead => ?_, fun hlast => ?_⟩
  · rw [hnil, Text.pieces_nil] at hpieces
    exact (h [] (hpieces ▸ List.mem_singleton_self [])).1 rfl
  · rcases Text.mem_intercalate hc with hc | ⟨run, hrun, hc⟩
    · rw [List.mem_singleton.1 hc]
      decide
    · have hjoint := (h run hrun).2 c hc
      simp only [isJoint, Bool.or_eq_false_iff, beq_eq_false_iff_ne] at hjoint
      exact hjoint.1
  · rintro ⟨front, back, heq⟩
    refine hfull front ('-' :: back) (by rw [← heq]; simp) (List.mem_append_right _ ?_)
    rw [Text.pieces_cons, Text.consPiece, if_pos (by rfl)]
    exact List.mem_cons_self
  · obtain ⟨back, heq⟩ := List.head?_eq_some_iff.1 hhead
    exact hfull [] back heq (List.mem_append_left _ (List.mem_singleton_self []))
  · obtain ⟨front, heq⟩ := List.getLast?_eq_some_iff.1 hlast
    exact hfull front [] heq (List.mem_append_right _ (List.mem_singleton_self []))

/-- A slug has the shape of a slug. -/
theorem isSlug_slugOf (label : List Char) : IsSlug (slugOf label) := by
  rw [slugOf_eq]
  split_ifs with hempty
  · have hsection : "section".toList = ['-'].intercalate ["section".toList] := by decide
    have hjoint : ("section".toList.all fun c => !isJoint c) = true := by decide
    rw [hsection]
    refine isSlug_intercalate (by simp) (List.forall_mem_singleton.2 ⟨by decide, fun c hc => ?_⟩)
    simpa using List.all_eq_true.1 hjoint c hc
  · exact isSlug_intercalate hempty fun run hrun =>
      ⟨(of_mem_runsOf hrun).1, fun c hc => ((of_mem_runsOf hrun).2 c hc).2⟩

/-- The runs of what the runs of a label make up with single hyphens between them are these. -/
theorem runsOf_intercalate (label : List Char) :
    runsOf (['-'].intercalate (runsOf label)) = runsOf label := by
  have hchar {c : Char} (hc : c ∈ ['-'].intercalate (runsOf label)) :
      Text.Case.IsLow c ∧ isKept c = true := by
    rcases Text.mem_intercalate hc with hc | ⟨run, hrun, hc⟩
    · rw [List.mem_singleton.1 hc]
      exact ⟨⟨by decide, by decide +kernel⟩, by decide⟩
    · obtain ⟨⟨hlower, hkept⟩, -⟩ := (of_mem_runsOf hrun).2 c hc
      exact ⟨(Text.isLow_of_mem_lowerFrom hlower).1, hkept⟩
  rw [runsOf, Text.lower_eq_self fun c hc => (hchar hc).1,
    List.filter_eq_self.2 fun c hc => (hchar hc).2]
  exact Text.runs_intercalate (by rfl) fun run hrun =>
    ⟨(of_mem_runsOf hrun).1, fun c hc => ((of_mem_runsOf hrun).2 c hc).2⟩

/-- A slug is its own slug. -/
theorem slugOf_slugOf (label : List Char) : slugOf (slugOf label) = slugOf label := by
  by_cases hempty : runsOf label = []
  · rw [slugOf_eq label, if_pos hempty]
    decide +kernel
  · rw [slugOf_eq label, if_neg hempty, slugOf_eq, runsOf_intercalate, if_neg hempty]

/-- Slugs are a normal form. The slug of a label is made of its runs, in lower case and without
punctuation, with single hyphens between them, and it is `section` if there are none. It has the
shape of a slug, and it is its own slug. -/
theorem slug_isNormal (label : String) :
    (slug label).toList =
        (if runsOf label.toList = [] then "section".toList
          else ['-'].intercalate (runsOf label.toList)) ∧
      IsSlug (slug label).toList ∧ slug (slug label) = slug label := by
  have hslug : (slug label).toList = slugOf label.toList := String.toList_ofList
  have hagain : slug (slug label) = slug label := by
    rw [slug, hslug, slugOf_slugOf, slug]
  rw [hslug]
  exact ⟨slugOf_eq _, isSlug_slugOf _, hagain⟩

end CueSheet.SectionId
