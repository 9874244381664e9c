import CueSheet.Proofs.Lists
import CueSheet.Proofs.Numeric.Order
import CueSheet.Validation

/-!
# Which cues pass

The checks of a cue overlap: a key may be under a rule of its own and under the rules for all keys,
and of these only the first that concerns it is applied. What passes is said here without the checks
and their order, by what holds of the name and of each parameter (`Cue.IsValid`). Each rule passes on
a condition of its own, and together the conditions are that one
(`Validation.letsPass_cueProblems_iff`).
-/

namespace CueSheet

open Text (lowered)

/-! ## Valid cues -/

/-- A value is a number, whole or real, with a rational. -/
def Value.IsRational (value : Value) (q : ℚ) : Prop :=
  ∃ x, value = .number x ∧ x.isNumeric = true ∧ x.toRat? = some q

namespace Validation

/-- A text is a letter or a digit with characters of names behind it. -/
def IsName (text : List Char) : Prop :=
  ∃ first rest, text = first :: rest ∧ isNameStart first = true ∧ ∀ c ∈ rest, isNameChar c = true

/-- A text is the mark of extensions with a small letter or a digit and characters of extensions
behind it. -/
def IsExtension (text : List Char) : Prop :=
  ∃ first rest, text = extensionMark ++ first :: rest ∧
    (first.isLower = true ∨ first.isDigit = true) ∧ ∀ c ∈ rest, isExtensionChar c = true

/-- A parameter is in order. -/
structure IsValidParam (strict : Bool) (maxRepeat : ℕ) (key : String) (value : Value) : Prop where
  /-- A number of repeats is a whole number from one up to the limit. -/
  repeats : key = "repeat" → ∃ n : ℤ, value = .int n ∧ 1 ≤ n ∧ n ≤ maxRepeat
  /-- An intensity or a volume is a number from zero to one. -/
  unit : key ∈ unitKeys → ∃ q, value.IsRational q ∧ 0 ≤ q ∧ q ≤ 1
  /-- A position in the stereo field is a number from minus one to one, or has a name. -/
  pan : key = "pan" →
    (∃ q, value.IsRational q ∧ -1 ≤ q ∧ q ≤ 1) ∨ ∃ s, value = .text s ∧ lowered s ∈ panPositions
  /-- A number is finite. -/
  finite : value.isNumeric = true → ∃ q, value.IsRational q
  /-- A time in beats is a number of at least zero. -/
  time : key ∈ beatKeys → ∃ q, value.IsRational q ∧ 0 ≤ q
  /-- No time is left under the key that it is written with. -/
  untimed : TimingKey.ofName? key = none
  /-- What starts like the key of an extension is one. -/
  extension : extensionMark <+: key.toList → IsExtension key.toList
  /-- Under a strict check every other key has a meaning. -/
  recognized : strict = true → ¬extensionMark <+: key.toList → key ∈ beatKeys ∨ key ∈ recognizedKeys

end Validation

/-- A cue is in order. -/
structure Cue.IsValid (strict : Bool) (maxRepeat : ℕ) (names : Option Namespace) (cue : Cue) :
    Prop where
  /-- The name is one. -/
  name : Validation.IsName cue.name.toList
  /-- Under a strict check the namespace knows the name with its category. -/
  known : strict = true → ∀ known ∈ names, known.isKnown cue.name cue.category = true
  /-- The parameters are in order. -/
  params : ∀ key value, (key, value) ∈ cue.params →
    Validation.IsValidParam strict maxRepeat key value

namespace Validation

/-! ## Checks that let pass -/

/-- A problem refuses nothing under a check of the given strictness. -/
def IsTolerated (strict : Bool) (problem : Problem) : Prop :=
  problem.severity = .warning ∧ (strict = true → problem.isStrictable = false)

/-- A check ends, and the problems that it finds refuse nothing. -/
def LetsPass (strict : Bool) (check : Except Fault (List Problem)) : Prop :=
  ∃ problems, check = .ok problems ∧ ∀ problem ∈ problems, IsTolerated strict problem

variable {strict : Bool} {value : Value} {key : String} {problem : Problem}

/-- A problem is reported with a warning exactly if it refuses nothing. -/
theorem isError_check_iff {line : ℤ} :
    (Diagnostic.check strict line problem).isError = false ↔ IsTolerated strict problem := by
  unfold Diagnostic.check Diagnostic.isError IsTolerated
  cases strict <;> cases problem.isStrictable <;> simp

/-- A check without problems lets pass. -/
@[simp] theorem letsPass_pure_nil : LetsPass strict (pure []) := ⟨[], rfl, nofun⟩

/-- A check with one problem lets pass what the problem does not refuse. -/
@[simp] theorem letsPass_pure_singleton_iff :
    LetsPass strict (pure [problem]) ↔ IsTolerated strict problem := by
  constructor
  · rintro ⟨problems, hproblems, htolerated⟩
    obtain rfl := pure_eq_ok_iff.1 hproblems
    exact htolerated _ List.mem_cons_self
  · exact fun h => ⟨_, rfl, List.forall_mem_singleton.2 h⟩

/-- A check that tells an error with the value that it is about lets nothing pass. -/
theorem not_letsPass_told {shown : Except Fault String} {problem : String → Problem}
    (h : ∀ s, (problem s).severity = .error) :
    ¬LetsPass strict (shown >>= fun s => (pure [problem s] : Except Fault _)) := by
  rintro ⟨problems, hproblems, htolerated⟩
  obtain ⟨s, -, hproblems⟩ := bind_eq_ok.1 hproblems
  obtain rfl := pure_eq_ok_iff.1 hproblems
  have hwarning := (htolerated _ List.mem_cons_self).1
  rw [h] at hwarning
  cases hwarning

/-- A check that tells an error unless a condition holds lets pass exactly what meets it. -/
theorem letsPass_guard_iff {condition : Prop} [Decidable condition] {shown : Except Fault String}
    {problem : String → Problem} (h : ∀ s, (problem s).severity = .error) :
    LetsPass strict (if condition then pure []
      else shown >>= fun s => (pure [problem s] : Except Fault _)) ↔ condition := by
  split_ifs with hcondition
  · exact iff_of_true letsPass_pure_nil hcondition
  · exact iff_of_false (not_letsPass_told h) hcondition

/-- A check of the elements of a list lets pass what the check of each of them does. -/
theorem letsPass_gather_iff {α : Type} {check : α → Except Fault (List Problem)} {xs : List α} :
    LetsPass strict (gather check xs) ↔ ∀ x ∈ xs, LetsPass strict (check x) := by
  rw [show (∀ x ∈ xs, LetsPass strict (check x)) ↔ _ from exists_mapM_iff.symm]
  constructor
  · rintro ⟨problems, hproblems, htolerated⟩
    obtain ⟨founds, hfounds, hproblems⟩ := bind_eq_ok.1 hproblems
    obtain rfl := pure_eq_ok_iff.1 hproblems
    exact ⟨founds, hfounds, fun found hfound problem hproblem =>
      htolerated problem (List.mem_flatten.2 ⟨found, hfound, hproblem⟩)⟩
  · rintro ⟨founds, hfounds, htolerated⟩
    refine ⟨founds.flatten, by rw [gather, hfounds]; rfl, fun problem hproblem => ?_⟩
    obtain ⟨found, hfound, hproblem⟩ := List.mem_flatten.1 hproblem
    exact htolerated found hfound problem hproblem

/-- A check of the parameter of a key lets pass cues for whose parameter of that key it does. -/
theorem letsPass_problemsAt_iff {params : Params} {check : Value → Except Fault (List Problem)}
    (hkeys : (params.map (·.1)).Nodup) :
    LetsPass strict (problemsAt params key check) ↔
      ∀ value, (key, value) ∈ params → LetsPass strict (check value) := by
  unfold problemsAt
  cases hlookup : params.lookup key with
  | none =>
    refine iff_of_true letsPass_pure_nil fun value hmem => ?_
    rw [lookup_of_mem hkeys hmem] at hlookup
    cases hlookup
  | some found =>
    refine ⟨fun h value hmem => ?_, fun h => h found (mem_of_lookup hlookup)⟩
    rw [lookup_of_mem hkeys hmem] at hlookup
    obtain rfl := Option.some.inj hlookup
    exact h

/-! ## Rules for single keys -/

/-- A quantity between two whole numbers is finite. -/
theorem isFinite_of_isBetween {low high : ℤ} {x : Number} (h : isBetween low high x = true) :
    x.isFinite = true := by
  unfold isBetween Number.le at h
  unfold Number.isFinite
  cases hx : x.extended with
  | finite | negZero => rfl
  | nan =>
    rw [hx] at h
    exact absurd h (by simp [Extended.compare?, Number.extended])
  | infinite negative =>
    rw [hx] at h
    cases negative <;> exact absurd h (by simp [Extended.compare?, Number.extended])

/-- A quantity lies between two whole numbers exactly if its rational does. -/
theorem isBetween_iff {low high : ℤ} {x : Number} :
    isBetween low high x = true ↔ ∃ q, x.toRat? = some q ∧ (low : ℚ) ≤ q ∧ q ≤ high := by
  constructor
  · intro h
    obtain ⟨q, hq⟩ := Number.isFinite_iff.1 (isFinite_of_isBetween h)
    rw [isBetween, Bool.and_eq_true, Number.le_iff (Number.toRat?_int low) hq,
      Number.le_iff hq (Number.toRat?_int high)] at h
    exact ⟨q, hq, h⟩
  · rintro ⟨q, hq, h⟩
    rwa [isBetween, Bool.and_eq_true, Number.le_iff (Number.toRat?_int low) hq,
      Number.le_iff hq (Number.toRat?_int high)]

/-- A number of repeats passes exactly if it is a whole number from one up to the limit. -/
theorem letsPass_repeatProblems_iff {limit : ℕ} :
    LetsPass strict (repeatProblems limit value) ↔
      ∃ n : ℤ, value = .int n ∧ 1 ≤ n ∧ n ≤ limit := by
  unfold repeatProblems
  split
  · next n =>
    have hvalue : (∃ m : ℤ, (.number (.int n) : Value) = .int m ∧ 1 ≤ m ∧ m ≤ (limit : ℤ)) ↔
        1 ≤ n ∧ n ≤ (limit : ℤ) := by
      simp [Value.int]
    rw [hvalue]
    split_ifs with hlow hhigh
    · exact iff_of_false (not_letsPass_told fun _ => rfl) (by omega)
    · exact iff_of_false (not_letsPass_told fun _ => rfl) (by omega)
    · exact iff_of_true letsPass_pure_nil (by omega)
  · exact iff_of_false (not_letsPass_told fun _ => rfl) (by simp [Value.int])
  · next hwhole _ =>
    refine iff_of_false (not_letsPass_told fun _ => rfl) ?_
    rintro ⟨n, rfl, -⟩
    exact hwhole n rfl

/-- An intensity or a volume passes exactly if it is a number from zero to one. -/
theorem letsPass_unitProblems_iff :
    LetsPass strict (unitProblems key value) ↔ ∃ q, value.IsRational q ∧ 0 ≤ q ∧ q ≤ 1 := by
  have hother (h : value.number? = none) : ¬∃ q, value.IsRational q ∧ 0 ≤ q ∧ q ≤ 1 := by
    rintro ⟨_, ⟨_, rfl, _⟩, _⟩
    cases h
  unfold unitProblems
  cases value with
  | null | text | list | record =>
    exact iff_of_false (not_letsPass_told fun _ => rfl) (hother rfl)
  | number x =>
    have hbetween : (∃ q, (Value.number x).IsRational q ∧ 0 ≤ q ∧ q ≤ 1) ↔
        x.isNumeric = true ∧ isBetween 0 1 x = true := by
      simp [Value.IsRational, isBetween_iff, and_assoc]
    rw [hbetween]
    dsimp only [Value.number?]
    split_ifs with hnumeric hin
    · exact iff_of_false (not_letsPass_told fun _ => rfl) fun h => by simp [h.1] at hnumeric
    · exact iff_of_true letsPass_pure_nil ⟨by simpa using hnumeric, hin⟩
    · exact iff_of_false (not_letsPass_told fun _ => rfl) fun h => hin h.2

/-- A position in the stereo field passes exactly if it is a number from minus one to one or has a
name. -/
theorem letsPass_panProblems_iff :
    LetsPass strict (panProblems value) ↔
      (∃ q, value.IsRational q ∧ -1 ≤ q ∧ q ≤ 1) ∨
        ∃ s, value = .text s ∧ lowered s ∈ panPositions := by
  unfold panProblems
  cases value with
  | null | list | record =>
    exact iff_of_false (not_letsPass_told fun _ => rfl) (by simp [Value.IsRational])
  | text s =>
    dsimp only
    have hname : (∃ q, (Value.text s).IsRational q ∧ -1 ≤ q ∧ q ≤ 1) ∨
        (∃ t, (Value.text s : Value) = .text t ∧ lowered t ∈ panPositions) ↔
          panPositions.contains (lowered s) = true := by
      simp [Value.IsRational]
    rw [hname]
    exact letsPass_guard_iff fun _ => rfl
  | number x =>
    have hbetween : (∃ q, (Value.number x).IsRational q ∧ -1 ≤ q ∧ q ≤ 1) ∨
        (∃ t, (Value.number x : Value) = .text t ∧ lowered t ∈ panPositions) ↔
          x.isNumeric = true ∧ isBetween (-1) 1 x = true := by
      simp [Value.IsRational, isBetween_iff, and_assoc]
    rw [hbetween]
    -- A truth value is no number here, although it can be compared with one.
    cases x with
    | bool b => exact iff_of_false (not_letsPass_told fun _ => rfl) (by simp [Number.isNumeric])
    | int | real => exact (letsPass_guard_iff fun _ => rfl).trans (and_iff_right rfl).symm

/-! ## Rules for names and for all keys -/

/-- A text on one line keeps its end when the line feed behind it is dropped. -/
theorem dropFinalFeed_eq_self {text : List Char} (h : '\n' ∉ text) : dropFinalFeed text = text := by
  unfold dropFinalFeed
  rw [if_neg fun hlast => h (List.mem_of_getLast? hlast)]

/-- A text on one line passes the pattern for names exactly if it is one. -/
theorem isCueName_iff {name : String} (h : '\n' ∉ name.toList) :
    isCueName name = true ↔ IsName name.toList := by
  unfold isCueName IsName
  rw [dropFinalFeed_eq_self h]
  cases name.toList with
  | nil => simp
  | cons first rest => simp

/-- A text on one line passes the pattern for keys of extensions exactly if it is one. -/
theorem isExtensionKey_iff {key : String} (h : '\n' ∉ key.toList) :
    isExtensionKey key = true ↔ IsExtension key.toList := by
  unfold isExtensionKey IsExtension
  rw [dropFinalFeed_eq_self h]
  split
  · next first rest htext =>
    rw [htext]
    simp [extensionMark]
  · next hother =>
    refine iff_of_false Bool.false_ne_true ?_
    rintro ⟨first, rest, htext, -⟩
    exact hother first rest htext

/-- The name of a cue passes exactly if it is one and a strict check knows it. -/
theorem tolerated_nameProblems_iff {names : Option Namespace} {cue : Cue}
    (hfeed : '\n' ∉ cue.name.toList) :
    (∀ problem ∈ nameProblems names cue, IsTolerated strict problem) ↔
      IsName cue.name.toList ∧
        (strict = true → ∀ known ∈ names, known.isKnown cue.name cue.category = true) := by
  rw [← isCueName_iff hfeed]
  unfold nameProblems
  split_ifs with hempty hname hknown
  · refine iff_of_false (fun h => ?_) fun h => ?_
    · cases (h _ List.mem_cons_self).1
    · rw [String.isEmpty_iff.1 hempty] at h
      cases h.1
  · refine iff_of_false (fun h => ?_) fun h => ?_
    · cases (h _ List.mem_cons_self).1
    · rw [h.1] at hname
      cases hname
  · refine iff_of_true nofun ⟨by simpa using hname, fun _ known hmem => ?_⟩
    rw [Option.mem_def.1 hmem] at hknown
    exact hknown
  · -- An unknown name is found in a namespace, and only a strict check refuses it.
    obtain ⟨known, rfl⟩ : ∃ known, names = some known :=
      Option.ne_none_iff_exists'.1 fun hnone => hknown (hnone ▸ rfl)
    have hunknown : known.isKnown cue.name cue.category = false := by simpa using hknown
    have hnamed : isCueName cue.name = true := by simpa using hname
    simp [IsTolerated, Problem.severity, Problem.isStrictable, hunknown, hnamed]

/-- The value of a key passes the rules for all keys exactly if it is finite, or under a rule of its
own, a time is at least zero and stored as one, the key of an extension is one, and a strict check
finds no other key without a meaning. -/
theorem letsPass_parameterProblems_iff :
    LetsPass strict (parameterProblems key value) ↔
      (key ∉ rangedKeys → value.isNumeric = true → value.isFinite = true) ∧
        (key ∈ beatKeys → value.isNumeric = true ∧ isBelowZero value = false) ∧
        TimingKey.ofName? key = none ∧
        (extensionMark <+: key.toList → isExtensionKey key = true) ∧
        (strict = true → ¬extensionMark <+: key.toList → key ∈ beatKeys ∨ key ∈ recognizedKeys) := by
  -- Times are stored under keys of their own.
  have hbeatKeys : ∀ key ∈ beatKeys, TimingKey.ofName? key = none ∧
      ¬extensionMark <+: key.toList := by decide
  have hfinite_iff : ¬(!rangedKeys.contains key && value.isNumeric && !value.isFinite) = true ↔
      (key ∉ rangedKeys → value.isNumeric = true → value.isFinite = true) := by
    simp
  have hsign_iff : ¬(!value.isNumeric || isBelowZero value) = true ↔
      value.isNumeric = true ∧ isBelowZero value = false := by
    simp
  have hnone : ¬(TimingKey.ofName? key).isSome = true ↔ TimingKey.ofName? key = none := by
    simp
  rw [← hfinite_iff, ← hsign_iff, ← hnone]
  unfold parameterProblems
  simp only [← List.contains_iff_mem, ← List.isPrefixOf_iff_prefix] at *
  split_ifs with hfinite hbeats hsign htiming hbelow hmark hkey hknown
  · exact iff_of_false (not_letsPass_told fun _ => rfl) fun h => h.1 hfinite
  · exact iff_of_false (not_letsPass_told fun _ => rfl) fun h => h.2.1 hbeats hsign
  · obtain ⟨huntimed, hmark⟩ := hbeatKeys key hbeats
    exact iff_of_true letsPass_pure_nil ⟨hfinite, fun _ => hsign, by simp [huntimed],
      fun h => absurd h hmark, fun _ _ => .inl hbeats⟩
  · exact iff_of_false (not_letsPass_told fun _ => rfl) fun h => h.2.2.1 htiming
  · exact iff_of_false (not_letsPass_told fun _ => rfl) fun h => h.2.2.1 htiming
  · exact iff_of_true letsPass_pure_nil ⟨hfinite, fun h => absurd h hbeats, htiming,
      fun _ => hkey, fun _ h => absurd hmark h⟩
  · refine iff_of_false (fun h => ?_) fun h => hkey (h.2.2.2.1 hmark)
    cases (letsPass_pure_singleton_iff.1 h).1
  · exact iff_of_true letsPass_pure_nil ⟨hfinite, fun h => absurd h hbeats, htiming,
      fun h => absurd h hmark, fun _ _ => .inr hknown⟩
  · rw [letsPass_pure_singleton_iff]
    constructor
    · intro h
      have hlax : strict ≠ true := fun hstrict => nomatch h.2 hstrict
      exact ⟨hfinite, fun h => absurd h hbeats, htiming, fun h => absurd h hmark,
        fun hstrict => absurd hstrict hlax⟩
    · intro h
      refine ⟨rfl, fun hstrict => ?_⟩
      rcases h.2.2.2.2 hstrict hmark with hbeat | hmeaning
      · exact absurd hbeat hbeats
      · exact absurd hmeaning hknown

/-! ## Parameters -/

/-- The rules let a parameter pass. -/
structure PassesRules (strict : Bool) (maxRepeat : ℕ) (key : String) (value : Value) : Prop where
  /-- The rule for numbers of repeats does. -/
  repeats : key = "repeat" → LetsPass strict (repeatProblems maxRepeat value)
  /-- The rule for intensities and volumes does. -/
  unit : key ∈ unitKeys → LetsPass strict (unitProblems key value)
  /-- The rule for positions does. -/
  pan : key = "pan" → LetsPass strict (panProblems value)
  /-- The rules for all keys do. -/
  others : LetsPass strict (parameterProblems key value)

/-- A value is finite exactly if it is a number with a rational. -/
theorem isFinite_iff_isRational : value.isFinite = true ↔ ∃ q, value.IsRational q := by
  cases value with
  | null | text | list | record => simp [Value.isFinite, Value.IsRational]
  | number x => simp [Value.isFinite, Value.IsRational, Number.isFinite_iff]

/-- A number is a time exactly if its rational is at least zero. -/
theorem isBelowZero_eq_false_iff {q : ℚ} (h : value.IsRational q) :
    isBelowZero value = false ↔ 0 ≤ q := by
  obtain ⟨x, rfl, hnumeric, hq⟩ := h
  have hnegative := Number.isNegative_iff hq
  rw [← not_lt, ← hnegative]
  simp [isBelowZero, Value.number?, hnumeric]

variable {maxRepeat : ℕ}

/-- A number that the rules let pass is finite. Under the rules for single keys it is so because it
has bounds. -/
theorem PassesRules.exists_isRational (h : PassesRules strict maxRepeat key value)
    (hnumeric : value.isNumeric = true) : ∃ q, value.IsRational q := by
  by_cases hranged : key ∈ rangedKeys
  · rw [rangedKeys, List.mem_append, List.mem_cons, List.mem_singleton] at hranged
    rcases hranged with (hkey | hkey) | hkey
    · obtain ⟨n, rfl, -⟩ := letsPass_repeatProblems_iff.1 (h.repeats hkey)
      exact ⟨n, .int n, rfl, rfl, rfl⟩
    · obtain ⟨q, hq, -⟩ | ⟨s, rfl, -⟩ := letsPass_panProblems_iff.1 (h.pan hkey)
      · exact ⟨q, hq⟩
      · cases hnumeric
    · obtain ⟨q, hq, -⟩ := letsPass_unitProblems_iff.1 (h.unit hkey)
      exact ⟨q, hq⟩
  · exact isFinite_iff_isRational.1 ((letsPass_parameterProblems_iff.1 h.others).1 hranged hnumeric)

/-- A parameter whose key is on one line is in order exactly if the rules let it pass. -/
theorem passesRules_iff (hfeed : '\n' ∉ key.toList) :
    PassesRules strict maxRepeat key value ↔ IsValidParam strict maxRepeat key value := by
  constructor
  · intro h
    obtain ⟨-, htime, huntimed, hextension, hrecognized⟩ := letsPass_parameterProblems_iff.1 h.others
    refine ⟨fun hkey => letsPass_repeatProblems_iff.1 (h.repeats hkey),
      fun hkey => letsPass_unitProblems_iff.1 (h.unit hkey),
      fun hkey => letsPass_panProblems_iff.1 (h.pan hkey), h.exists_isRational, fun hkey => ?_,
      huntimed, fun hmark => (isExtensionKey_iff hfeed).1 (hextension hmark), hrecognized⟩
    obtain ⟨hnumeric, hsign⟩ := htime hkey
    obtain ⟨q, hq⟩ := h.exists_isRational hnumeric
    exact ⟨q, hq, (isBelowZero_eq_false_iff hq).1 hsign⟩
  · intro h
    refine ⟨fun hkey => letsPass_repeatProblems_iff.2 (h.repeats hkey),
      fun hkey => letsPass_unitProblems_iff.2 (h.unit hkey),
      fun hkey => letsPass_panProblems_iff.2 (h.pan hkey), letsPass_parameterProblems_iff.2
        ⟨fun _ hnumeric => isFinite_iff_isRational.2 (h.finite hnumeric), fun hkey => ?_, h.untimed,
          fun hmark => (isExtensionKey_iff hfeed).2 (h.extension hmark), h.recognized⟩⟩
    obtain ⟨q, hq, hnonneg⟩ := h.time hkey
    have hnumeric : value.isNumeric = true := by
      obtain ⟨x, rfl, hx, -⟩ := hq
      exact hx
    exact ⟨hnumeric, (isBelowZero_eq_false_iff hq).2 hnonneg⟩

/-! ## Cues -/

/-- The problems of a cue are those of its name, of the parameters with bounds of their own, and of all
parameters. -/
theorem cueProblems_eq_ok {names : Option Namespace} {cue : Cue} {problems : List Problem}
    (h : cueProblems maxRepeat names cue = .ok problems) :
    ∃ repeats units pan others,
      problemsAt cue.params "repeat" (repeatProblems maxRepeat) = .ok repeats ∧
      gather (fun key => problemsAt cue.params key (unitProblems key)) unitKeys = .ok units ∧
      problemsAt cue.params "pan" panProblems = .ok pan ∧
      gather (fun param => parameterProblems param.1 param.2) cue.params = .ok others ∧
      problems = nameProblems names cue ++ repeats ++ units ++ pan ++ others := by
  obtain ⟨repeats, hrepeats, h⟩ := bind_eq_ok.1 h
  obtain ⟨units, hunits, h⟩ := bind_eq_ok.1 h
  obtain ⟨pan, hpan, h⟩ := bind_eq_ok.1 h
  obtain ⟨others, hothers, h⟩ := bind_eq_ok.1 h
  exact ⟨repeats, units, pan, others, hrepeats, hunits, hpan, hothers, (pure_eq_ok_iff.1 h).symm⟩

variable {names : Option Namespace} {cue : Cue}

/-- A cue passes exactly if its name and its checks do. -/
theorem letsPass_cueProblems_iff_checks :
    LetsPass strict (cueProblems maxRepeat names cue) ↔
      (∀ problem ∈ nameProblems names cue, IsTolerated strict problem) ∧
        LetsPass strict (problemsAt cue.params "repeat" (repeatProblems maxRepeat)) ∧
        LetsPass strict (gather (fun key => problemsAt cue.params key (unitProblems key)) unitKeys) ∧
        LetsPass strict (problemsAt cue.params "pan" panProblems) ∧
        LetsPass strict (gather (fun param => parameterProblems param.1 param.2) cue.params) := by
  constructor
  · rintro ⟨problems, hproblems, htolerated⟩
    obtain ⟨repeats, units, pan, others, hrepeats, hunits, hpan, hothers, rfl⟩ :=
      cueProblems_eq_ok hproblems
    simp only [List.forall_mem_append, and_assoc] at htolerated
    obtain ⟨hname, hr, hu, hp, ho⟩ := htolerated
    exact ⟨hname, ⟨repeats, hrepeats, hr⟩, ⟨units, hunits, hu⟩, ⟨pan, hpan, hp⟩,
      ⟨others, hothers, ho⟩⟩
  · rintro ⟨hname, ⟨repeats, hrepeats, hr⟩, ⟨units, hunits, hu⟩, ⟨pan, hpan, hp⟩,
      ⟨others, hothers, ho⟩⟩
    refine ⟨nameProblems names cue ++ repeats ++ units ++ pan ++ others, ?_, ?_⟩
    · rw [cueProblems, hrepeats, ok_bind, hunits, ok_bind, hpan, ok_bind, hothers]
      rfl
    · simp only [List.forall_mem_append, and_assoc]
      exact ⟨hname, hr, hu, hp, ho⟩

/-- A cue without a key twice passes exactly if its name does and the rules let its parameters pass. -/
theorem letsPass_cueProblems_iff_rules (hkeys : (cue.params.map (·.1)).Nodup) :
    LetsPass strict (cueProblems maxRepeat names cue) ↔
      (∀ problem ∈ nameProblems names cue, IsTolerated strict problem) ∧
        ∀ key value, (key, value) ∈ cue.params → PassesRules strict maxRepeat key value := by
  rw [letsPass_cueProblems_iff_checks, letsPass_gather_iff, letsPass_gather_iff,
    letsPass_problemsAt_iff hkeys, letsPass_problemsAt_iff hkeys]
  simp only [letsPass_problemsAt_iff hkeys]
  refine and_congr_right fun _ => ⟨?_, fun h => ⟨fun value hmem => (h _ _ hmem).repeats rfl,
    fun key hkey value hmem => (h _ _ hmem).unit hkey, fun value hmem => (h _ _ hmem).pan rfl,
    fun param hmem => (h _ _ hmem).others⟩⟩
  rintro ⟨hrepeats, hunits, hpan, hothers⟩ key value hmem
  exact ⟨fun hkey => hrepeats value (hkey ▸ hmem), fun hkey => hunits key hkey value hmem,
    fun hkey => hpan value (hkey ▸ hmem), hothers _ hmem⟩

/-- A cue whose name and keys are on one line, no key twice, passes exactly if it is in order. -/
theorem letsPass_cueProblems_iff (hname : '\n' ∉ cue.name.toList)
    (hfeed : ∀ param ∈ cue.params, '\n' ∉ param.1.toList)
    (hkeys : (cue.params.map (·.1)).Nodup) :
    LetsPass strict (cueProblems maxRepeat names cue) ↔ cue.IsValid strict maxRepeat names := by
  have hparams : (∀ key value, (key, value) ∈ cue.params → PassesRules strict maxRepeat key value) ↔
      ∀ key value, (key, value) ∈ cue.params → IsValidParam strict maxRepeat key value :=
    forall₂_congr fun key value => imp_congr_right fun hmem => passesRules_iff (hfeed _ hmem)
  rw [letsPass_cueProblems_iff_rules hkeys, tolerated_nameProblems_iff hname, hparams]
  exact ⟨fun ⟨⟨hname, hknown⟩, hparams⟩ => ⟨hname, hknown, hparams⟩,
    fun ⟨hname, hknown, hparams⟩ => ⟨⟨hname, hknown⟩, hparams⟩⟩

/-- The quantities of a cue that passes are finite. -/
theorem isFinite_of_letsPass (hkeys : (cue.params.map (·.1)).Nodup)
    (h : LetsPass strict (cueProblems maxRepeat names cue)) {x : Number}
    (hmem : (key, .number x) ∈ cue.params) : x.isFinite = true := by
  have hrules := ((letsPass_cueProblems_iff_rules hkeys).1 h).2 key (.number x) hmem
  by_cases hnumeric : x.isNumeric = true
  · obtain ⟨q, _, hvalue, -, hq⟩ := hrules.exists_isRational hnumeric
    obtain rfl := Value.number.inj hvalue
    exact Number.isFinite_iff.2 ⟨q, hq⟩
  · cases x with
    | bool b => rfl
    | int | real => exact absurd rfl hnumeric

end Validation

end CueSheet
