import CueSheet.Proofs.Validation
import CueSheet.Proofs.Validation.Cue

/-!
# In which fields problems are reported

Every check reports in fields of its own: the song and its tempo map in those of the song, the name
of a cue in one, and each rule for a parameter under the key of the parameter (`Validation.Tells`).
Keys are under several rules, and a rule may be about several keys. Of the three parameters that a
walk reads, repeats, a duration and a start, each is under one rule only (`Validation.walkedRule`),
so what this rule finds is what the validator reports in the field (`Validation.mem_field_iff`), and
the diagnostics about the line of a cue say the same (`Validation.exists_isAbout_iff`).
-/

namespace CueSheet

/-- A diagnostic is about a field of what stands on a line. -/
def Diagnostic.IsAbout (line : ℤ) (field : String) (diagnostic : Diagnostic) : Prop :=
  diagnostic.line = some line ∧ diagnostic.problem.field = some field

namespace Validation

/-- All problems that a check finds have a property. -/
def Tells (P : Problem → Prop) (check : Except Fault (List Problem)) : Prop :=
  ∀ problems, check = .ok problems → ∀ problem ∈ problems, P problem

variable {P : Problem → Prop} {limit : ℕ} {key : String} {value : Value} {names : Option Namespace}
  {cue : Cue}

/-- A check that finds nothing tells nothing. -/
theorem tells_pure_nil : Tells P (pure []) := by
  intro problems h
  obtain rfl := pure_eq_ok_iff.1 h
  exact List.forall_mem_nil P

/-- A check that finds one problem tells it. -/
theorem tells_pure_singleton {problem : Problem} (h : P problem) : Tells P (pure [problem]) := by
  intro problems hproblems
  obtain rfl := pure_eq_ok_iff.1 hproblems
  exact List.forall_mem_singleton.2 h

/-- A check tells a problem with the value that it is about. -/
theorem tells_told {shown : Except Fault String} {problem : String → Problem}
    (h : ∀ s, P (problem s)) : Tells P (shown >>= fun s => pure [problem s]) := by
  intro problems hproblems
  obtain ⟨s, -, hproblems⟩ := bind_eq_ok.1 hproblems
  exact tells_pure_singleton (h s) problems hproblems

/-- What the check of a number of repeats tells. -/
theorem tells_repeatProblems (hrange : ∀ s, P (.repeatRange s)) (hlimit : ∀ s, P (.repeatLimit limit s))
    (hkind : ∀ s, P (.repeatKind s)) : Tells P (repeatProblems limit value) := by
  unfold repeatProblems
  split
  · split_ifs
    · exact tells_told hrange
    · exact tells_told hlimit
    · exact tells_pure_nil
  · exact tells_told hrange
  · exact tells_told hkind

/-- What the check of a parameter from zero to one tells. -/
theorem tells_unitProblems (hkind : ∀ s, P (.unitKind key s)) (hrange : ∀ s, P (.unitRange key s)) :
    Tells P (unitProblems key value) := by
  unfold unitProblems
  split
  · split_ifs
    · exact tells_told hkind
    · exact tells_pure_nil
    · exact tells_told hrange
  · exact tells_told hkind

/-- What the check of a position in the stereo field tells. -/
theorem tells_panProblems (hkind : ∀ s, P (.panKind s)) (hrange : ∀ s, P (.panRange s)) :
    Tells P (panProblems value) := by
  unfold panProblems
  split
  · exact tells_told hkind
  · exact tells_told hkind
  · exact tells_told hkind
  · exact tells_told hkind
  · split_ifs
    · exact tells_pure_nil
    · exact tells_told hrange
  · split_ifs
    · exact tells_pure_nil
    · exact tells_told hkind

/-- What the rules for all keys tell. -/
theorem tells_parameterProblems (hfinite : ∀ s, P (.notFinite key s))
    (htime : ∀ s, P (.negativeTime key s)) (hduration : ∀ s, P (.notDuration key s))
    (hextension : P (.extensionKey key)) (hunrecognized : P (.unrecognizedParameter key)) :
    Tells P (parameterProblems key value) := by
  unfold parameterProblems
  split_ifs
  · exact tells_told hfinite
  · exact tells_told htime
  · exact tells_pure_nil
  · exact tells_told htime
  · exact tells_told hduration
  · exact tells_pure_nil
  · exact tells_pure_singleton hextension
  · exact tells_pure_nil
  · exact tells_pure_singleton hunrecognized

/-- What the check of the name of a cue tells. -/
theorem forall_mem_nameProblems (hnone : P .noCueName) (hname : ∀ name, P (.cueName name))
    (hunknown : ∀ name, P (.unknownCue name)) : ∀ problem ∈ nameProblems names cue, P problem := by
  unfold nameProblems
  split_ifs
  · exact List.forall_mem_singleton.2 hnone
  · exact List.forall_mem_singleton.2 (hname _)
  · exact List.forall_mem_nil P
  · exact List.forall_mem_singleton.2 (hunknown _)

/-- The rules for all keys tell of the field of the key. -/
theorem tells_field_parameterProblems :
    Tells (·.field = some key) (parameterProblems key value) :=
  tells_parameterProblems (fun _ => rfl) (fun _ => rfl) (fun _ => rfl) rfl rfl

/-- A number of repeats is refused with an error in its field. -/
theorem tells_field_repeatProblems :
    Tells (fun problem => problem.field = some "repeat" ∧ problem.severity = .error)
      (repeatProblems limit value) :=
  tells_repeatProblems (fun _ => ⟨rfl, rfl⟩) (fun _ => ⟨rfl, rfl⟩) fun _ => ⟨rfl, rfl⟩

/-- The rules for all keys leave a number of repeats to the rule for it. -/
theorem parameterProblems_repeat : parameterProblems "repeat" value = .ok [] := rfl

/-- A time in beats is refused with an error. -/
theorem tells_parameterProblems_beats (hkey : key ∈ beatKeys) :
    Tells (·.severity = .error) (parameterProblems key value) := by
  unfold parameterProblems
  rw [if_pos (c := beatKeys.contains key = true) (List.contains_iff_mem.2 hkey)]
  split_ifs
  · exact tells_told fun _ => rfl
  · exact tells_told fun _ => rfl
  · exact tells_pure_nil

/-- The keys of the parameters that the walk reads. -/
def walkedKeys : List String := ["repeat", "duration_beats", "start_beats"]

/-- The rule for a parameter that the walk reads. -/
def walkedRule (limit : ℕ) (key : String) (value : Value) : Except Fault (List Problem) :=
  if key = "repeat" then repeatProblems limit value else parameterProblems key value

/-- A key that the walk reads is the one for repeats or one for a time. -/
theorem eq_repeat_or_mem_beatKeys (h : key ∈ walkedKeys) : key = "repeat" ∨ key ∈ beatKeys := by
  simp only [walkedKeys, List.mem_cons, List.not_mem_nil, or_false] at h
  rcases h with rfl | rfl | rfl <;> decide

/-- The rule for a parameter that the walk reads does not fail. -/
theorem not_fails_walkedRule (limit : ℕ) (key : String) (h : value.IsKept) :
    ¬Fails (walkedRule limit key value) := by
  unfold walkedRule
  split_ifs
  · rw [fails_repeatProblems_iff limit h.isPlain.isScalar]
    exact fun ⟨_, hn, hlong, _⟩ => h.isPlain.not_isLong hn hlong
  · rw [fails_parameterProblems_iff key h.isPlain.isScalar]
    exact fun ⟨_, hn, hlong, _⟩ => h.isPlain.not_isLong hn hlong

/-- What the walk reads is refused with an error in its field. -/
theorem tells_walkedRule (hkey : key ∈ walkedKeys) :
    Tells (fun problem => problem.field = some key ∧ problem.severity = .error)
      (walkedRule limit key value) := by
  unfold walkedRule
  split_ifs with hrepeat
  · exact hrepeat ▸ tells_field_repeatProblems
  · have hbeats := (eq_repeat_or_mem_beatKeys hkey).resolve_left hrepeat
    exact fun problems h problem hmem => ⟨tells_field_parameterProblems problems h problem hmem,
      tells_parameterProblems_beats hbeats problems h problem hmem⟩

/-- A problem is found in a list if it is found in an element of it. -/
theorem mem_gather_iff {α : Type} {check : α → Except Fault (List Problem)} {xs : List α}
    {problems : List Problem} (h : gather check xs = .ok problems) {problem : Problem} :
    problem ∈ problems ↔ ∃ x ∈ xs, ∃ found, check x = .ok found ∧ problem ∈ found := by
  obtain ⟨founds, hfounds, h⟩ := bind_eq_ok.1 h
  obtain rfl := pure_eq_ok_iff.1 h
  have hfounds := mapM_eq_ok_iff.1 hfounds
  rw [List.mem_flatten]
  constructor
  · rintro ⟨found, hfound, hmem⟩
    obtain ⟨x, hx, hcheck⟩ := exists_of_mem_right hfounds hfound
    exact ⟨x, hx, found, hcheck, hmem⟩
  · rintro ⟨x, hx, found, hcheck, hmem⟩
    obtain ⟨found', hfound, hcheck'⟩ := exists_of_mem_left hfounds hx
    obtain rfl := Except.ok.inj (hcheck.symm.trans hcheck')
    exact ⟨found, hfound, hmem⟩

/-- The check of the parameter of a key tells what the check of its value tells. -/
theorem tells_problemsAt {params : Params} {check : Value → Except Fault (List Problem)}
    (h : ∀ value, Tells P (check value)) : Tells P (problemsAt params key check) := by
  unfold problemsAt
  split
  · exact tells_pure_nil
  · exact h _

/-- The fields of names, positions and parameters from zero to one are none that the walk reads. -/
theorem ne_of_mem_walkedKeys (hkey : key ∈ walkedKeys) :
    ∀ other ∈ "name" :: "pan" :: unitKeys, key ≠ other := by
  rintro other hother rfl
  revert hkey hother
  simp only [walkedKeys, unitKeys, List.mem_cons, List.not_mem_nil, or_false]
  rintro (rfl | rfl | rfl) <;> decide

/-- A problem of a cue in a field that the walk reads is found by the rule for it. -/
theorem exists_walkedRule_of_mem (hkeys : (cue.params.map (·.1)).Nodup) {problems : List Problem}
    (h : cueProblems limit names cue = .ok problems) (hkey : key ∈ walkedKeys)
    (hmem : (key, value) ∈ cue.params) {problem : Problem} (hproblem : problem ∈ problems)
    (hfield : problem.field = some key) :
    ∃ found, walkedRule limit key value = .ok found ∧ problem ∈ found := by
  obtain ⟨repeats, units, pan, others, hrepeats, hunits, hpan, hothers, rfl⟩ := cueProblems_eq_ok h
  have hlookup := lookup_of_mem hkeys hmem
  have hfields := ne_of_mem_walkedKeys hkey
  have hsame {field : String} (h : problem.field = some field) : key = field :=
    Option.some.inj (hfield.symm.trans h)
  simp only [List.mem_append] at hproblem
  -- A problem of the name, of a unit value or of the position names a field that is not walked.
  obtain (((hname | hrepeat) | hunit) | hpanMem) | hother := hproblem
  · have htold := forall_mem_nameProblems (P := (·.field = some "name")) rfl (fun _ => rfl)
      (fun _ => rfl) problem hname
    exact absurd (hsame htold) (hfields _ List.mem_cons_self)
  · obtain rfl :=
      hsame (tells_problemsAt (fun _ => tells_field_repeatProblems) _ hrepeats problem hrepeat).1
    rw [problemsAt, hlookup] at hrepeats
    exact ⟨repeats, hrepeats, hrepeat⟩
  · obtain ⟨unit, hunitKey, found, hfound, hmemFound⟩ := (mem_gather_iff hunits).1 hunit
    have htold := tells_problemsAt (P := (·.field = some unit))
      (fun _ => tells_unitProblems (fun _ => rfl) fun _ => rfl) _ hfound problem hmemFound
    exact absurd (hsame htold) (hfields unit (by simp [hunitKey]))
  · have htold := tells_problemsAt (P := (·.field = some "pan"))
      (fun _ => tells_panProblems (fun _ => rfl) fun _ => rfl) _ hpan problem hpanMem
    exact absurd (hsame htold) (hfields _ (by simp))
  · obtain ⟨⟨other, value'⟩, hparam, found, hfound, hmemFound⟩ := (mem_gather_iff hothers).1 hother
    obtain rfl := hsame (tells_field_parameterProblems _ hfound problem hmemFound)
    obtain rfl := Option.some.inj (hlookup.symm.trans (lookup_of_mem hkeys hparam))
    refine ⟨found, ?_, hmemFound⟩
    unfold walkedRule
    split_ifs with hrepeat
    · subst hrepeat
      obtain rfl := Except.ok.inj (parameterProblems_repeat.symm.trans hfound)
      cases hmemFound
    · exact hfound

/-- What the rule for a parameter that the walk reads finds is a problem of the cue. -/
theorem mem_of_mem_walkedRule (hkeys : (cue.params.map (·.1)).Nodup) {problems found : List Problem}
    (h : cueProblems limit names cue = .ok problems) (hmem : (key, value) ∈ cue.params)
    (hfound : walkedRule limit key value = .ok found) {problem : Problem}
    (hproblem : problem ∈ found) : problem ∈ problems := by
  obtain ⟨repeats, units, pan, others, hrepeats, -, -, hothers, rfl⟩ := cueProblems_eq_ok h
  unfold walkedRule at hfound
  split_ifs at hfound with hrepeat
  · subst hrepeat
    rw [problemsAt, lookup_of_mem hkeys hmem] at hrepeats
    obtain rfl := Except.ok.inj (hfound.symm.trans hrepeats)
    simp [hproblem]
  · have hother : problem ∈ others := (mem_gather_iff hothers).2 ⟨_, hmem, found, hfound, hproblem⟩
    simp [hother]

/-- Of the problems of a cue, those in a field that the walk reads are the ones that the rule for it
finds. -/
theorem mem_field_iff (hkeys : (cue.params.map (·.1)).Nodup) {problems : List Problem}
    (h : cueProblems limit names cue = .ok problems) (hkey : key ∈ walkedKeys)
    (hmem : (key, value) ∈ cue.params) {problem : Problem} :
    (problem ∈ problems ∧ problem.field = some key) ↔
      ∃ found, walkedRule limit key value = .ok found ∧ problem ∈ found := by
  constructor
  · rintro ⟨hproblem, hfield⟩
    exact exists_walkedRule_of_mem hkeys h hkey hmem hproblem hfield
  · rintro ⟨found, hfound, hproblem⟩
    exact ⟨mem_of_mem_walkedRule hkeys h hmem hfound hproblem,
      (tells_walkedRule hkey found hfound problem hproblem).1⟩

/-- The rule for a parameter that the walk reads refuses all that it finds something wrong with. -/
theorem letsPass_walkedRule_iff (strict : Bool) (hkey : key ∈ walkedKeys) :
    LetsPass strict (walkedRule limit key value) ↔ walkedRule limit key value = .ok [] := by
  constructor
  · rintro ⟨found, hfound, htolerated⟩
    have hnone : ∀ problem, problem ∉ found := by
      intro problem hproblem
      have herror := (tells_walkedRule hkey found hfound problem hproblem).2
      rw [(htolerated problem hproblem).1] at herror
      cases herror
    rw [hfound, List.eq_nil_iff_forall_not_mem.2 hnone]
  · exact fun h => ⟨[], h, List.forall_mem_nil _⟩

/-- A time in beats passes exactly if it is a number of at least zero. -/
theorem letsPass_parameterProblems_beats_iff {strict : Bool} (hkey : key ∈ beatKeys) :
    LetsPass strict (parameterProblems key value) ↔ ∃ q, value.IsRational q ∧ 0 ≤ q := by
  have hkeys : ∀ key ∈ beatKeys, key ∉ rangedKeys ∧ TimingKey.ofName? key = none ∧
      ¬extensionMark <+: key.toList := by decide
  obtain ⟨hranged, huntimed, hmark⟩ := hkeys key hkey
  rw [letsPass_parameterProblems_iff]
  constructor
  · rintro ⟨hfinite, htime, -⟩
    obtain ⟨hnumeric, hsign⟩ := htime hkey
    obtain ⟨q, hq⟩ := isFinite_iff_isRational.1 (hfinite hranged hnumeric)
    exact ⟨q, hq, (isBelowZero_eq_false_iff hq).1 hsign⟩
  · rintro ⟨q, hq, hnonneg⟩
    have hnumeric : value.isNumeric = true := by
      obtain ⟨x, rfl, hx, -⟩ := hq
      exact hx
    exact ⟨fun _ _ => isFinite_iff_isRational.2 ⟨q, hq⟩,
      fun _ => ⟨hnumeric, (isBelowZero_eq_false_iff hq).2 hnonneg⟩, huntimed,
      fun h => absurd h hmark, fun _ _ => .inl hkey⟩

/-- Whether a problem is about the song as a whole or its tempo map. -/
def isSongProblem : Problem → Bool
  | .emptySong | .bpm _ | .beatsPerBar _ | .tempoMap _ => true
  | _ => false

/-- A problem of the song as a whole is in none of the fields that the walk reads. -/
theorem field_ne_of_isSongProblem {problem : Problem} (h : isSongProblem problem = true)
    (hkey : key ∈ walkedKeys) : problem.field ≠ some key := by
  intro hfield
  cases problem with
  | emptySong | bpm | beatsPerBar | tempoMap =>
    obtain rfl := Option.some.inj hfield
    exact absurd hkey (by decide)
  | _ => cases h

/-- What the check of a song as a whole tells. -/
theorem tells_songProblems {song : Song} (hempty : P .emptySong) (hbpm : ∀ s, P (.bpm s))
    (hbeats : ∀ s, P (.beatsPerBar s)) : Tells P (songProblems song) := by
  have htempo : Tells P
      (if isTempo song.bpm then pure [] else song.bpm.quoted >>= fun s => pure [.bpm s]) := by
    split_ifs
    · exact tells_pure_nil
    · exact tells_told hbpm
  have hbar : Tells P (if isCount song.beatsPerBar then pure []
      else song.beatsPerBar.quoted >>= fun s => pure [.beatsPerBar s]) := by
    split_ifs
    · exact tells_pure_nil
    · exact tells_told hbeats
  intro problems h
  rw [songProblems_eq] at h
  obtain ⟨bpm, hfound, h⟩ := bind_eq_ok.1 h
  obtain ⟨beats, hfound', h⟩ := bind_eq_ok.1 h
  obtain rfl := pure_eq_ok_iff.1 h
  refine List.forall_mem_append.2 ⟨List.forall_mem_append.2 ⟨?_, htempo bpm hfound⟩,
    hbar beats hfound'⟩
  split_ifs
  · exact List.forall_mem_singleton.2 hempty
  · exact List.forall_mem_nil P

/-- What the check of the tempo map of a song tells. -/
theorem tells_tempoProblems {ρ : Rounding} {song : Song} (h : ∀ why, P (.tempoMap why)) :
    Tells P (tempoProblems ρ song) := by
  unfold tempoProblems
  split_ifs
  · exact tells_pure_nil
  · split
    · exact tells_pure_nil
    · exact tells_pure_singleton (h _)
    · exact nofun

/-! ## Diagnostics -/

variable {ρ : Rounding} {config : Config} {names : Option Namespace} {song : Song}
  {diagnostics : List Diagnostic} {before after : List Item} {cue : Cue} {line : ℤ} {key : String}
  {value : Value}

/-- The diagnostics of a song are those of the song as a whole, of its tempo map and of its items. -/
theorem mem_validate_iff (h : validate ρ config names song = .ok diagnostics) :
    ∃ whole tempo, songProblems song = .ok whole ∧ tempoProblems ρ song = .ok tempo ∧ ∀ diagnostic,
      diagnostic ∈ diagnostics ↔ diagnostic ∈ (whole ++ tempo).map (Diagnostic.onLine 1) ∨
        ∃ item ∈ song.sections.flatMap (·.items), ∃ found,
          itemDiagnostics config names item = .ok found ∧ diagnostic ∈ found := by
  obtain ⟨whole, hwhole, h⟩ := bind_eq_ok.1 h
  obtain ⟨tempo, htempo, h⟩ := bind_eq_ok.1 h
  obtain ⟨founds, hfounds, h⟩ := bind_eq_ok.1 h
  obtain rfl := pure_eq_ok_iff.1 h
  have hfounds := mapM_eq_ok_iff.1 hfounds
  refine ⟨whole, tempo, hwhole, htempo, fun diagnostic => ?_⟩
  rw [List.mem_append, List.mem_flatten]
  refine or_congr_right ⟨?_, ?_⟩
  · rintro ⟨found, hfound, hmem⟩
    obtain ⟨item, hitem, hcheck⟩ := exists_of_mem_right hfounds hfound
    exact ⟨item, hitem, found, hcheck, hmem⟩
  · rintro ⟨item, hitem, found, hcheck, hmem⟩
    obtain ⟨found', hfound, hcheck'⟩ := exists_of_mem_left hfounds hitem
    obtain rfl := Except.ok.inj (hcheck.symm.trans hcheck')
    exact ⟨found, hfound, hmem⟩

/-- The problems of a song as a whole and of its tempo map are about the song. -/
theorem isSongProblem_of_mem {whole tempo : List Problem} (hwhole : songProblems song = .ok whole)
    (htempo : tempoProblems ρ song = .ok tempo) :
    ∀ problem ∈ whole ++ tempo, isSongProblem problem = true :=
  List.forall_mem_append.2
    ⟨tells_songProblems (P := (isSongProblem · = true)) rfl (fun _ => rfl) (fun _ => rfl) whole hwhole,
      tells_tempoProblems (P := (isSongProblem · = true)) (fun _ => rfl) tempo htempo⟩

/-- The diagnostics of an item are those of a cue, on its line. -/
theorem exists_of_mem_itemDiagnostics {item : Item} {found : List Diagnostic}
    (h : itemDiagnostics config names item = .ok found) {diagnostic : Diagnostic}
    (hmem : diagnostic ∈ found) :
    ∃ cue line, item = .cue cue line ∧ diagnostic.line = some line := by
  cases item with
  | performance | lyric | raw =>
    obtain rfl := pure_eq_ok_iff.1 h
    cases hmem
  | cue cue line =>
    obtain ⟨problems, -, h⟩ := bind_eq_ok.1 h
    obtain rfl := pure_eq_ok_iff.1 h
    obtain ⟨problem, -, rfl⟩ := List.mem_map.1 hmem
    exact ⟨cue, line, rfl, rfl⟩

/-- A diagnostic of a cue is about a field if its problem is. -/
theorem exists_isAbout_cue_iff {problems : List Problem} {found : List Diagnostic}
    (hproblems : cueProblems config.maxRepeat.val names cue = .ok problems)
    (h : itemDiagnostics config names (.cue cue line) = .ok found) :
    (∃ diagnostic ∈ found, diagnostic.IsAbout line key) ↔
      ∃ problem ∈ problems, problem.field = some key := by
  rw [itemDiagnostics, hproblems, ok_bind] at h
  obtain rfl := pure_eq_ok_iff.1 h
  simp [Diagnostic.IsAbout, Diagnostic.check]

/-- If a cue is the only one on its line, the diagnostics about the fields there that the walk reads
are its own. -/
theorem exists_isAbout_iff {found : List Diagnostic}
    (hfound : itemDiagnostics config names (.cue cue line) = .ok found)
    (h : validate ρ config names song = .ok diagnostics)
    (hitems : song.sections.flatMap (·.items) = before ++ .cue cue line :: after)
    (halone : ∀ other otherLine, .cue other otherLine ∈ before ++ after → otherLine ≠ line)
    (hkey : key ∈ walkedKeys) :
    (∃ diagnostic ∈ diagnostics, diagnostic.IsAbout line key) ↔
      ∃ diagnostic ∈ found, diagnostic.IsAbout line key := by
  obtain ⟨whole, tempo, hwhole, htempo, hmem⟩ := mem_validate_iff h
  constructor
  · rintro ⟨diagnostic, hdiagnostic, habout⟩
    -- It is not about the song as a whole, and not about an item on another line.
    rcases (hmem diagnostic).1 hdiagnostic with hsong | ⟨item, hitem, found', hfound', hin⟩
    · obtain ⟨problem, hproblem, rfl⟩ := List.mem_map.1 hsong
      have hsong := isSongProblem_of_mem hwhole htempo problem hproblem
      exact absurd habout.2 (field_ne_of_isSongProblem hsong hkey)
    · obtain ⟨other, otherLine, rfl, hline⟩ := exists_of_mem_itemDiagnostics hfound' hin
      obtain rfl := Option.some.inj (habout.1.symm.trans hline)
      rw [hitems, List.mem_append, List.mem_cons] at hitem
      obtain hbefore | hcue | hafter := hitem
      · exact absurd rfl (halone other _ (List.mem_append_left _ hbefore))
      · obtain rfl := Except.ok.inj (hfound.symm.trans (hcue ▸ hfound'))
        exact ⟨_, hin, habout⟩
      · exact absurd rfl (halone other _ (List.mem_append_right _ hafter))
  · rintro ⟨diagnostic, hdiagnostic, habout⟩
    exact ⟨diagnostic, (hmem diagnostic).2
      (.inr ⟨.cue cue line, by simp [hitems], found, hfound, hdiagnostic⟩), habout⟩

end Validation

end CueSheet
