import CueSheet.Proofs.Timeline.Canonical
import CueSheet.Proofs.Validation.Fields

/-!
# What is reported of times is not used

The validator and the walk through a song decide for themselves which repeats, durations and starts
of a cue make sense. They agree (`Timeline.reported_iff_not_isUsed`): the validator reports exactly
what the walk does not use, and what it reports might as well be missing. Both decisions come down
to one condition on the value of the parameter. Repeats have to be a whole number from one up to the
limit (`Timeline.isUsed_repeat_iff`), and a time has to be a number of at least zero
(`Timeline.isUsed_beats_iff`).
-/

namespace CueSheet

/-- The cue without the parameter of a key. -/
def Cue.without (cue : Cue) (key : String) : Cue :=
  { cue with params := cue.params.filter fun param => param.1 ≠ key }

namespace Timeline

variable {ρ : Rounding} {limit : ℕ} {params : Params} {key other : String} {value : Value}
  {cue : Cue}

/-- The walk uses a parameter as it is given. -/
inductive IsUsed (ρ : Rounding) (limit : ℕ) (params : Params) : String → Prop where
  /-- The cue happens as often as it asks for. -/
  | repeats (h : params.lookup "repeat" = some (.int (repeats limit params))) :
    IsUsed ρ limit params "repeat"
  /-- A time is the real number that it is read as. -/
  | beats {key : String} {x : Number} {beats : Extended}
    (hkey : key = "duration_beats" ∨ key = "start_beats")
    (hvalue : params.lookup key = some (.number x)) (hread : x.toReal ρ = .ok beats)
    (husable : usableParam? ρ params key = .ok (some (.real beats)))
    (hduration : key = "duration_beats" →
      ∃ d, duration ρ params = .ok d ∧ d.eq (.real beats) = true) : IsUsed ρ limit params key

/-- A number of repeats is used exactly if it is a whole number from one up to the limit. -/
theorem isUsed_repeat_iff (hlimit : 0 < limit) (hvalue : params.lookup "repeat" = some value) :
    IsUsed ρ limit params "repeat" ↔ ∃ n : ℤ, value = .int n ∧ 1 ≤ n ∧ n ≤ limit := by
  constructor
  · intro h
    cases h with
    | beats hkey => exact absurd hkey (by decide)
    | repeats h =>
      obtain rfl := Option.some.inj (hvalue.symm.trans h)
      have hrepeats : params.Repeats limit (repeats limit params) := repeats_eq_iff.1 rfl
      generalize repeats limit params = times at *
      cases hrepeats with
      | within hgiven hpos hle =>
        exact ⟨_, Option.some.inj (hvalue.symm.trans hgiven), hpos, hle⟩
      -- Without a number of repeats within the limit the cue happens once, and so one is not given.
      | once hnone =>
        have := hnone 1 hvalue le_rfl
        omega
  · rintro ⟨n, rfl, hpos, hle⟩
    have hrepeats : repeats limit params = n.toNat :=
      repeats_eq_iff.2 (.within hvalue hpos hle)
    refine .repeats ?_
    rw [hvalue, hrepeats, Int.toNat_of_nonneg (by omega)]

/-- A cue lasts as long as its duration says, if that can be used. -/
theorem exists_duration {beats : Extended} (h : params.HasBeats .binary64 "duration_beats" beats) :
    ∃ d, duration .binary64 params = .ok d ∧ d.eq (.real beats) = true := by
  obtain ⟨q, hq, hnonneg⟩ := lands_binary64.exists_of_hasBeats h
  have hreal : (Number.real beats).toRat? = some q := hq
  by_cases hpositive : (Number.real beats).isPositive = true
  · exact ⟨_, duration_eq_ok_iff.2 (.usable h hpositive), (Number.eq_iff hreal hreal).2 rfl⟩
  -- A duration of zero is replaced by zero, which makes a difference only to the sign of zero.
  · refine ⟨_, duration_eq_ok_iff.2 (.zero h (Bool.eq_false_of_not_eq_true hpositive)), ?_⟩
    rw [Number.isPositive_iff hreal] at hpositive
    exact (Number.eq_iff (p := 0) rfl hreal).2 (le_antisymm hnonneg (not_lt.1 hpositive))

/-- A time is used exactly if it is a number of at least zero. -/
theorem isUsed_beats_iff (hkey : key = "duration_beats" ∨ key = "start_beats")
    (hvalue : params.lookup key = some value) (hkept : value.IsKept) :
    IsUsed .binary64 limit params key ↔ ∃ q, value.IsRational q ∧ 0 ≤ q := by
  constructor
  · intro h
    cases h with
    | repeats => exact absurd hkey (by decide)
    | beats _ _ _ husable _ =>
      obtain ⟨_, -, x, hx, hnumeric, ⟨q, hq, hnonneg⟩, -⟩ := usableParam?_eq_some_iff.1 husable
      obtain rfl := Option.some.inj (hvalue.symm.trans hx)
      exact ⟨q, ⟨x, rfl, hnumeric, hq⟩, hnonneg⟩
  · rintro ⟨q, ⟨x, rfl, hnumeric, hq⟩, hnonneg⟩
    have hkept : x.IsKept := hkept
    obtain ⟨beats, hread⟩ := not_fails_iff.1 hkept.not_fails_toReal
    have hbeats : params.HasBeats .binary64 key beats :=
      ⟨x, hvalue, hnumeric, ⟨q, hq, hnonneg⟩, hread⟩
    exact .beats hkey hvalue hread (usableParam?_eq_some_iff.2 ⟨beats, rfl, hbeats⟩)
      fun heq => exists_duration (heq ▸ hbeats)

/-- A parameter under another key is used as before. -/
theorem usableParam?_without (hne : key ≠ other) :
    usableParam? ρ (cue.without other).params key = usableParam? ρ cue.params key := by
  rw [usableParam?, usableParam?, Cue.without, lookup_filter_ne, if_neg hne]

/-- Without the parameter of a key there is none that can be used. -/
theorem usableParam?_without_self :
    usableParam? ρ (cue.without key).params key = .ok none := by
  rw [usableParam?, Cue.without, lookup_filter_ne, if_pos rfl]
  rfl

/-- A time that is not used might as well be missing. -/
theorem usableParam?_without_of_not_isUsed (hother : other ∈ Validation.walkedKeys)
    (hvalue : cue.params.lookup other = some value) (hkept : value.IsKept)
    (h : ¬IsUsed .binary64 limit cue.params other)
    (hkey : key = "duration_beats" ∨ key = "start_beats") :
    usableParam? .binary64 (cue.without other).params key =
      usableParam? .binary64 cue.params key := by
  by_cases heq : key = other
  · subst heq
    rw [isUsed_beats_iff hkey hvalue hkept] at h
    rw [usableParam?_without_self, eq_comm, usableParam?_eq_none_iff]
    intro x hx hnumeric q hq
    obtain rfl := Option.some.inj (hvalue.symm.trans hx)
    exact not_le.1 fun hnonneg => h ⟨q, ⟨x, rfl, hnumeric, hq⟩, hnonneg⟩
  · exact usableParam?_without heq

/-- A cue has the times that it has. -/
theorem timesBeside_refl (limit : ℕ) (cue : Cue) : TimesBeside ρ Eq Eq limit cue cue :=
  ⟨agree_usable_refl, agree_usable_refl, rfl⟩

/-- What is not used might as well be missing. -/
theorem timesBeside_without (hlimit : 0 < limit) (hkey : key ∈ Validation.walkedKeys)
    (hvalue : cue.params.lookup key = some value) (hkept : value.IsKept)
    (h : ¬IsUsed .binary64 limit cue.params key) :
    TimesBeside .binary64 Eq Eq limit cue (cue.without key) := by
  refine ⟨?_, ?_, ?_⟩
  · rw [usableParam?_without_of_not_isUsed hkey hvalue hkept h (.inl rfl)]
    exact agree_usable_refl
  · rw [usableParam?_without_of_not_isUsed hkey hvalue hkept h (.inr rfl)]
    exact agree_usable_refl
  · unfold repeats Cue.without
    rw [lookup_filter_ne]
    split_ifs with hrepeat
    · subst hrepeat
      rw [isUsed_repeat_iff hlimit hvalue] at h
      rw [hvalue]
      split
      next n heq =>
        obtain rfl := Option.some.inj heq
        exact if_neg fun hn => h ⟨n, rfl, hn⟩
      next => rfl
    · rfl

end Timeline

namespace Validation

variable {names : Option Namespace} {cue : Cue} {key : String} {value : Value}

/-- The rule for a parameter that the walk reads lets pass what the walk uses. -/
theorem letsPass_walkedRule_iff_isUsed {limit : ℕ} {params : Params} (strict : Bool)
    (hlimit : 0 < limit) (hkey : key ∈ walkedKeys) (hvalue : params.lookup key = some value)
    (hkept : value.IsKept) :
    LetsPass strict (walkedRule limit key value) ↔
      Timeline.IsUsed .binary64 limit params key := by
  unfold walkedRule
  split_ifs with hrepeat
  · subst hrepeat
    rw [letsPass_repeatProblems_iff, Timeline.isUsed_repeat_iff hlimit hvalue]
  · have hbeats : key = "duration_beats" ∨ key = "start_beats" := by
      simpa [walkedKeys, hrepeat] using hkey
    have hbeatKey := (eq_repeat_or_mem_beatKeys hkey).resolve_left hrepeat
    rw [letsPass_parameterProblems_beats_iff hbeatKey,
      Timeline.isUsed_beats_iff hbeats hvalue hkept]

/-- A cue has a problem in a field that the walk reads exactly if the walk does not use it. -/
theorem exists_field_iff_not_isUsed {limit : ℕ} {problems : List Problem} (hlimit : 0 < limit)
    (hkeys : (cue.params.map (·.1)).Nodup) (h : cueProblems limit names cue = .ok problems)
    (hkey : key ∈ walkedKeys) (hmem : (key, value) ∈ cue.params) (hkept : value.IsKept) :
    (∃ problem ∈ problems, problem.field = some key) ↔
      ¬Timeline.IsUsed .binary64 limit cue.params key := by
  have hvalue := lookup_of_mem hkeys hmem
  obtain ⟨found, hfound⟩ := not_fails_iff.1 (not_fails_walkedRule limit key hkept)
  rw [← letsPass_walkedRule_iff_isUsed false hlimit hkey hvalue hkept,
    letsPass_walkedRule_iff false hkey, hfound, Except.ok.injEq]
  have hin (problem : Problem) : (problem ∈ problems ∧ problem.field = some key) ↔
      problem ∈ found := by
    rw [mem_field_iff hkeys h hkey hmem, hfound]
    exact ⟨fun ⟨_, heq, hproblem⟩ => Except.ok.inj heq ▸ hproblem, fun h => ⟨found, rfl, h⟩⟩
  rw [exists_congr hin]
  exact ⟨fun ⟨_, hproblem⟩ => List.ne_nil_of_mem hproblem, List.exists_mem_of_ne_nil found⟩

end Validation

namespace Timeline

open Validation (itemDiagnostics walkedKeys)

/-- The second of two cues is the first one, or the given cue without a parameter. -/
def Drops (cue : Cue) (key : String) (c c' : Cue) : Prop := c' = c ∨ c = cue ∧ c' = cue.without key

/-- The validator reports repeats, a duration or a start of a cue exactly if the walk does not use
what is given, and what it reports of a song that has the cue alone on a line is the same. What is
reported might as well be missing: the walk through the cue leaves the same cursor, the same happens
in it, and a song that is given without it has the same events. -/
theorem reported_iff_not_isUsed (config : Config) (names : Option Namespace) (cue : Cue) (line : ℤ)
    (key : String) (hkeys : (cue.params.map (·.1)).Nodup)
    (hkept : ∀ param ∈ cue.params, param.2.IsKept) (hkey : key ∈ walkedKeys)
    (hmem : key ∈ cue.params.map (·.1)) :
    let limit := config.maxRepeat.val
    ∃ found, itemDiagnostics config names (.cue cue line) = .ok found ∧
      ((∀ d ∈ found, ¬d.IsAbout line key) ↔ IsUsed .binary64 limit cue.params key) ∧
      (∀ (song : Song) (diagnostics : List Diagnostic) (before after : List Item),
        validate .binary64 config names song = .ok diagnostics →
        song.sections.flatMap (·.items) = before ++ .cue cue line :: after →
        (∀ other otherLine, .cue other otherLine ∈ before ++ after → otherLine ≠ line) →
        ((∃ d ∈ diagnostics, d.IsAbout line key) ↔ ∃ d ∈ found, d.IsAbout line key)) ∧
      ((∃ d ∈ found, d.IsAbout line key) →
        (∀ sectionId cursor, Agree Eq (Walk.Beside Eq (Drops cue key) Eq)
          (walkCue .binary64 limit sectionId cursor cue line)
          (walkCue .binary64 limit sectionId cursor (cue.without key) line)) ∧
        ∀ song song' segments map, TempoMap.IsOf .binary64 segments map →
          List.Forall₂ (Section.Beside (Drops cue key) Eq) song.sections song'.sections →
          Agree Eq (List.Forall₂ (EventsBeside Eq (Drops cue key) Eq Eq))
            (schedule .binary64 limit map song) (schedule .binary64 limit map song')) := by
  intro limit
  obtain ⟨⟨key, value⟩, hparam, rfl⟩ := List.mem_map.1 hmem
  have hkeptValue : value.IsKept := hkept _ hparam
  have hplain : cue.IsPlain := fun param hparam => (hkept param hparam).isPlain
  have hlimit : 0 < limit := config.maxRepeat.property
  obtain ⟨problems, hproblems⟩ :=
    not_fails_iff.1 (Validation.not_fails_cueProblems limit names hplain)
  obtain ⟨found, hfound⟩ : ∃ found, itemDiagnostics config names (.cue cue line) = .ok found :=
    ⟨_, by rw [itemDiagnostics, hproblems]; rfl⟩
  have hreported : (∃ d ∈ found, d.IsAbout line key) ↔
      ¬IsUsed .binary64 limit cue.params key := by
    rw [Validation.exists_isAbout_cue_iff hproblems hfound]
    exact Validation.exists_field_iff_not_isUsed hlimit hkeys hproblems hkey hparam hkeptValue
  refine ⟨found, hfound, ?_, fun song diagnostics before after h hitems halone =>
    Validation.exists_isAbout_iff hfound h hitems halone hkey, fun hd => ?_⟩
  · rw [← not_iff_not, ← hreported]
    simp
  · have hdrops : ∀ c c', Drops cue key c c' → TimesBeside .binary64 Eq Eq limit c c' := by
      rintro c _ (rfl | ⟨rfl, rfl⟩)
      · exact timesBeside_refl limit _
      · exact timesBeside_without hlimit hkey (lookup_of_mem hkeys hparam) hkeptValue
          (hreported.1 hd)
    refine ⟨fun sectionId cursor => ?_, fun song song' segments map hmap hsections => ?_⟩
    · have hcue : Drops cue key cue (cue.without key) := .inr ⟨rfl, rfl⟩
      exact walkCue_agree (keeps_eq _) hcue (hdrops _ _ hcue) sectionId rfl rfl
    · refine schedule_agree (keeps_eq _) hdrops hmap hmap ?_ hsections
      rintro beat _ rfl
      exact .refl fun _ _ => rfl

/-- Of a negative duration and a number of repeats within the limit the duration is reported. -/
theorem reported_iff_not_isUsed_drummed :
    let params : Params := [("duration_beats", .int (-2)), ("repeat", .int 2)]
    let cue : Cue := ⟨"drum", none, params, []⟩
    let limit := Config.standard.maxRepeat.val
    let reported : Diagnostic :=
      ⟨.negativeTime "duration_beats" "-2", .error, some 3, none⟩
    validate .binary64 .standard none (drummed [] 1 params) = .ok [reported] ∧
      reported.IsAbout 3 "duration_beats" ∧ IsUsed .binary64 limit params "repeat" ∧
      ∀ cursor, Agree Eq (Walk.Beside Eq (Drops cue "duration_beats") Eq)
        (walkCue .binary64 limit "verse" cursor cue 3)
        (walkCue .binary64 limit "verse" cursor (cue.without "duration_beats") 3) := by
  intro params cue limit reported
  have hvalidate : validate .binary64 .standard none (drummed [] 1 params) = .ok [reported] := by
    decide +kernel
  have hkept : ∀ param ∈ params, param.2.IsKept := by
    have hminus : |((-2 : ℤ) : ℚ)| < overflowAt := by decide +kernel
    have htwo : |((2 : ℤ) : ℚ)| < overflowAt := by decide +kernel
    exact List.forall_mem_cons.2 ⟨hminus, List.forall_mem_singleton.2 htwo⟩
  have hreported : itemDiagnostics .standard none (.cue cue 3) = .ok [reported] := by
    decide +kernel
  have habout : reported.IsAbout 3 "duration_beats" := ⟨rfl, rfl⟩
  have hitems : (drummed [] 1 params).sections.flatMap (·.items) =
      [.lyric "la" 2] ++ .cue cue 3 :: [] := rfl
  obtain ⟨found, -, -, hsong, hdropped⟩ := reported_iff_not_isUsed .standard none cue 3
    "duration_beats" (by decide) hkept (by decide) (by decide)
  obtain ⟨found', hfound', hused, -⟩ := reported_iff_not_isUsed .standard none cue 3
    "repeat" (by decide) hkept (by decide) (by decide)
  obtain rfl := Except.ok.inj (hreported.symm.trans hfound')
  have hfoundAbout := (hsong _ _ _ _ hvalidate hitems (by simp)).1
    ⟨reported, List.mem_singleton_self _, habout⟩
  refine ⟨hvalidate, habout, hused.1 (List.forall_mem_singleton.2 fun h => ?_), fun cursor =>
    (hdropped hfoundAbout).1 "verse" cursor⟩
  exact absurd (Option.some.inj h.2) (by decide)

end Timeline

end CueSheet
