import CueSheet.Proofs.Agree
import CueSheet.Proofs.Namespace
import CueSheet.Proofs.Validation.Fields

/-!
# Validation with more known names

A namespace is asked for one thing in the check of a song: whether the name of a cue that is one is
known. So with more names the check finds what it found before, in the same order, but for the
unknown cues among these names (`validate_withNames`).
-/

namespace CueSheet

open Text (lowered)

/-- Whether a problem is that a cue is unknown which has one of the names. -/
def Problem.isUnknownAmong (names : List String) : Problem → Bool
  | .unknownCue name => (names.map lowered).contains (lowered name)
  | _ => false

/-- The problems but for the unknown cues with one of the names. -/
def Problem.without (names : List String) (problems : List Problem) : List Problem :=
  problems.filter fun problem => !problem.isUnknownAmong names

/-- The diagnostics but for those of unknown cues with one of the names. -/
def Diagnostic.without (names : List String) (diagnostics : List Diagnostic) : List Diagnostic :=
  diagnostics.filter fun diagnostic => !diagnostic.problem.isUnknownAmong names

namespace Validation

variable {ns : Namespace} {names : List String} {config : Config} {ρ : Rounding} {song : Song}

/-- Problems among which there is no unknown cue stay. -/
theorem without_eq {problems : List Problem}
    (h : ∀ problem ∈ problems, problem.isUnknownAmong names = false) :
    Problem.without names problems = problems :=
  List.filter_eq_self.2 fun problem hproblem => by rw [h problem hproblem]; rfl

/-- Problems are left out one after the other. -/
theorem without_append (names : List String) (first second : List Problem) :
    Problem.without names (first ++ second) =
      Problem.without names first ++ Problem.without names second :=
  List.filter_append first second

/-- Diagnostics are left out where their problems are. -/
theorem without_map {report : Problem → Diagnostic} (h : ∀ problem, (report problem).problem = problem)
    (names : List String) (problems : List Problem) :
    Diagnostic.without names (problems.map report) = (Problem.without names problems).map report := by
  rw [Diagnostic.without, List.filter_map, Problem.without]
  refine congrArg (List.map report) (List.filter_congr fun problem _ => ?_)
  rw [Function.comp_apply, h]

/-- With more names the check of the name of a cue finds the same but for an unknown cue among them.
-/
theorem nameProblems_withNames (h : ns.IsReached) (names : List String) (cue : Cue) :
    nameProblems (some (ns.withNames names)) cue =
      Problem.without names (nameProblems (some ns) cue) := by
  have hknown := h.isKnown_withNames names cue.name cue.category
  have hunknown : Problem.isUnknownAmong names (.unknownCue cue.name) = true ↔
      lowered cue.name ∈ names.map lowered := List.contains_iff_mem
  unfold nameProblems
  simp only [Option.all_some]
  split_ifs with hempty hname hafter hbefore hbefore
  · rfl
  · rfl
  · rfl
  · have hadded := hunknown.2 ((hknown.1 hafter).resolve_right hbefore)
    simp [Problem.without, hadded]
  · exact absurd (hknown.2 (.inr hbefore)) hafter
  · have hother : ¬Problem.isUnknownAmong names (.unknownCue cue.name) = true := fun hadded =>
      hafter (hknown.2 (.inl (hunknown.1 hadded)))
    simp [Problem.without, hother]

/-- With more names the check of a cue finds the same but for the unknown cues among them. -/
theorem cueProblems_withNames (h : ns.IsReached) (names : List String) (limit : ℕ) (cue : Cue) :
    Agree Eq (fun found found' => found' = Problem.without names found)
      (cueProblems limit (some ns) cue) (cueProblems limit (some (ns.withNames names)) cue) := by
  let P (problem : Problem) : Prop := problem.isUnknownAmong names = false
  have hsame {check : Except Fault (List Problem)} : Agree Eq Eq check check := .refl fun _ _ => rfl
  -- No check of a parameter tells of an unknown cue.
  refine hsame.bind_same fun repeats hrepeats => hsame.bind_same fun units hunits =>
    hsame.bind_same fun pan hpan => hsame.bind_same fun others hothers => .ok ?_
  have hrepeats' : ∀ problem ∈ repeats, P problem :=
    tells_problemsAt (fun _ => tells_repeatProblems (fun _ => rfl) (fun _ => rfl) fun _ => rfl)
      repeats hrepeats
  have hunits' : ∀ problem ∈ units, P problem := by
    intro problem hmem
    obtain ⟨unit, -, found, hfound, hmem⟩ := (mem_gather_iff hunits).1 hmem
    exact tells_problemsAt (fun _ => tells_unitProblems (fun _ => rfl) fun _ => rfl) found hfound
      problem hmem
  have hpan' : ∀ problem ∈ pan, P problem :=
    tells_problemsAt (fun _ => tells_panProblems (fun _ => rfl) fun _ => rfl) pan hpan
  have hothers' : ∀ problem ∈ others, P problem := by
    intro problem hmem
    obtain ⟨param, -, found, hfound, hmem⟩ := (mem_gather_iff hothers).1 hmem
    exact tells_parameterProblems (P := P) (fun _ => rfl) (fun _ => rfl) (fun _ => rfl) rfl rfl
      found hfound problem hmem
  have hrest : ∀ problem ∈ repeats ++ units ++ pan ++ others, P problem := by
    simp only [List.forall_mem_append]
    exact ⟨⟨⟨hrepeats', hunits'⟩, hpan'⟩, hothers'⟩
  have hsplit (found : List Problem) : found ++ repeats ++ units ++ pan ++ others =
      found ++ (repeats ++ units ++ pan ++ others) := by simp
  rw [hsplit, hsplit, without_append, without_eq hrest, nameProblems_withNames h]

/-- With more names the check of an item reports the same but for the unknown cues among them. -/
theorem itemDiagnostics_withNames (h : ns.IsReached) (names : List String) (config : Config)
    (item : Item) : Agree Eq (fun found found' => found' = Diagnostic.without names found)
      (itemDiagnostics config (some ns) item)
      (itemDiagnostics config (some (ns.withNames names)) item) := by
  cases item with
  | performance | lyric | raw => exact .ok rfl
  | cue cue line =>
    refine (cueProblems_withNames h names _ cue).bind fun found found' hfound => .ok ?_
    rw [hfound, without_map fun _ => rfl]

/-- The problems of a song as a whole and of its tempo map are about no cue. -/
theorem not_isUnknownAmong_of_isSongProblem {problem : Problem} (h : isSongProblem problem = true) :
    problem.isUnknownAmong names = false := by
  cases problem with
  | unknownCue => cases h
  | _ => rfl

/-- With more names a song is validated as before but for the unknown cues among them. -/
theorem validate_withNames_eq (h : ns.IsReached) (names : List String) (ρ : Rounding)
    (config : Config) (song : Song) :
    validate ρ config (some (ns.withNames names)) song =
      Diagnostic.without names <$> validate ρ config (some ns) song := by
  have hsame {check : Except Fault (List Problem)} : Agree Eq Eq check check := .refl fun _ _ => rfl
  refine Agree.eq_map (hsame.bind_same fun whole hwhole => hsame.bind_same fun tempo htempo => ?_)
  refine (Agree.mapM (List.forall₂_same.2 fun item _ =>
    itemDiagnostics_withNames h names config item)).bind fun founds founds' hfounds => .ok ?_
  have hwhole : Diagnostic.without names ((whole ++ tempo).map (Diagnostic.onLine 1)) =
      (whole ++ tempo).map (Diagnostic.onLine 1) := by
    rw [without_map fun _ => rfl, without_eq fun problem hproblem =>
      not_isUnknownAmong_of_isSongProblem (isSongProblem_of_mem hwhole htempo problem hproblem)]
  calc (whole ++ tempo).map (Diagnostic.onLine 1) ++ founds'.flatten
    _ = Diagnostic.without names ((whole ++ tempo).map (Diagnostic.onLine 1)) ++
        (founds.map (Diagnostic.without names)).flatten := by
      rw [hwhole, eq_map_of_forall₂ hfounds]
    _ = Diagnostic.without names ((whole ++ tempo).map (Diagnostic.onLine 1) ++ founds.flatten) := by
      rw [Diagnostic.without, Diagnostic.without, List.filter_append, List.filter_flatten]
      rfl

end Validation

/-- More known names only take unknown cues out of what is reported. With more names a namespace knows
these and what it knew before, at each place of a chain of additions, and letter case makes no
difference to what it knows. A song is validated as before, with the same diagnostics in the same
order, but for exactly those of unknown cues with one of the names. -/
theorem validate_withNames {ns : Namespace} (h : ns.IsReached) :
    (∀ (names : List String) (name : String) (category : Option String),
      (ns.withNames names).isKnown name category = true ↔
        lowered name ∈ names.map lowered ∨ ns.isKnown name category = true) ∧
    (∀ (lists : List (List String)) (i : ℕ) (reached : Namespace),
      (lists.scanl Namespace.withNames ns)[i]? = some reached →
        ∀ (name : String) (category : Option String), reached.isKnown name category = true ↔
          lowered name ∈ (lists.take i).flatten.map lowered ∨ ns.isKnown name category = true) ∧
    (∀ (name : String) (category : Option String),
      ns.isKnown name category = ns.isKnown (lowered name) (category.map lowered)) ∧
    ∀ (names : List String) (ρ : Rounding) (config : Config) (song : Song),
      validate ρ config (some (ns.withNames names)) song =
        Diagnostic.without names <$> validate ρ config (some ns) song :=
  ⟨h.isKnown_withNames, fun lists _ _ hreached => h.isKnown_scanl lists hreached,
    fun name category => (ns.isKnown_lowered name category).symm,
    fun names ρ config song => Validation.validate_withNames_eq h names ρ config song⟩

/-- A namespace to which names have been added. -/
def drumNames : Namespace := (Namespace.ofNames ["Bells"] [("Horn", "SFX")]).withNames ["drum"]

/-- A song with cues of which one has a category that the namespace does not have, and one a name that
it does not have. -/
def gongSong : Song where
  title := none
  bpm := .int 120
  beatsPerBar := .int 4
  key := none
  version := defaultVersion
  timeSignature := none
  instruments := []
  tempoChanges := []
  sections := [⟨"a", "A", [.cue ⟨"HORN", some "music", [], []⟩ 2, .cue ⟨"gong", none, [], []⟩ 3,
    .cue ⟨"bells", none, [("pitch", .int 1)], []⟩ 4], 1⟩]

/-- Once the second name is known it is reported no longer, and the category that is not known still
is. -/
theorem validate_withNames_gongSong :
    drumNames.IsReached ∧
      validate .binary64 .standard (some drumNames) gongSong =
        .ok [.check false 2 (.unknownCue "HORN"), .check false 3 (.unknownCue "gong")] ∧
      validate .binary64 .standard (some (drumNames.withNames ["Gong"])) gongSong =
        .ok [.check false 2 (.unknownCue "HORN")] := by
  have hreached : drumNames.IsReached := .extended (.made _ _) _
  have hbefore : validate .binary64 .standard (some drumNames) gongSong =
      .ok [.check false 2 (.unknownCue "HORN"), .check false 3 (.unknownCue "gong")] := by
    decide +kernel
  refine ⟨hreached, hbefore, ?_⟩
  rw [(validate_withNames hreached).2.2.2, hbefore]
  decide +kernel

end CueSheet
