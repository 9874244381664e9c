import CueSheet.Proofs.Tempo.Conflict
import CueSheet.Validation

/-!
# Where validation fails

Messages of the validator quote values, and a whole number of too many digits cannot be quoted. So a
check of a value that is neither a list nor a record fails exactly if it has a problem to tell of a
whole number with more digits than are written (`IsLong`). The values of a sound song can all be
quoted, so its validation never fails, whatever it has to report (`not_fails_validate`).
-/

namespace CueSheet

/-- A whole number has more digits than are written. -/
def IsLong (n : ℤ) : Prop := 10 ^ digitLimit ≤ n.natAbs

/-- A number has more digits than are written exactly if it is a long whole number. -/
theorem Number.not_isWritable_iff {x : Number} : ¬x.IsWritable ↔ ∃ n : ℤ, x = .int n ∧ IsLong n := by
  simp [IsWritable, IsLong]

namespace Value

variable {value : Value}

/-- A value is neither a list nor a record. -/
def IsScalar : Value → Prop
  | null | number _ | text _ => True
  | list _ | record _ => False

/-- A value that can stand in a document is neither a list nor a record. -/
theorem IsPlain.isScalar (h : value.IsPlain) : value.IsScalar := by
  cases value with
  | null | number | text => trivial
  | list | record => exact h.elim

/-- A value that can stand in a document is no long whole number. -/
theorem IsPlain.not_isLong (h : value.IsPlain) {n : ℤ} (hn : value = .int n) : ¬IsLong n := by
  subst hn
  exact not_le.2 (h.writable n rfl)

/-- A value fails to be quoted exactly if it is a long whole number. -/
theorem fails_quoted_iff (h : value.IsScalar) :
    Fails value.quoted ↔ ∃ n : ℤ, value = .int n ∧ IsLong n := by
  rw [quoted, fails_bind_of_total fun _ _ => not_fails_pure _]
  cases value with
  | null | text => simp [write]
  | list | record => exact h.elim
  | number x =>
    simp only [write, Number.fails_write_iff, Number.not_isWritable_iff, number.injEq]

/-- A problem that quotes a value fails to be told exactly if the value is a long whole number. -/
theorem fails_problem_iff (h : value.IsScalar) (problem : String → Problem) :
    Fails (value.quoted >>= fun quoted => (pure [problem quoted] : Except Fault _)) ↔
      ∃ n : ℤ, value = .int n ∧ IsLong n := by
  rw [fails_bind_of_total fun _ _ => not_fails_pure _, fails_quoted_iff h]

end Value

namespace Validation

variable {value : Value} {key : String} {song : Song}

/-! ## Parameters -/

/-- A number of repeats fails to be checked exactly if it is a long whole number out of bounds. -/
theorem fails_repeatProblems_iff (limit : ℕ) (h : value.IsScalar) :
    Fails (repeatProblems limit value) ↔
      ∃ n : ℤ, value = .int n ∧ IsLong n ∧ (n < 1 ∨ (limit : ℤ) < n) := by
  unfold repeatProblems
  split
  · next n =>
    have hquoted := Value.fails_problem_iff h Problem.repeatRange
    have hshown : Fails ((Value.int n).shown >>= fun shown =>
        (pure [Problem.repeatLimit limit shown] : Except Fault _)) ↔ IsLong n := by
      rw [fails_bind_of_total fun _ _ => not_fails_pure _, Value.shown, Number.fails_shown_iff,
        Number.not_isWritable_iff]
      simp
    split_ifs with hlow hhigh
    · simpa [hlow] using hquoted
    · simpa [hhigh] using hshown
    · simp [hlow, hhigh]
  · exact (Value.fails_problem_iff h _).trans (by simp)
  · next hnone _ =>
    refine (Value.fails_problem_iff h _).trans (iff_of_false ?_ ?_)
    · rintro ⟨n, rfl, -⟩
      exact hnone n rfl
    · rintro ⟨n, rfl, -⟩
      exact hnone n rfl

/-- A long whole number does not lie between minus one and one. -/
theorem not_isBetween_of_isLong {low n : ℤ} (hlow : -1 ≤ low) (h : IsLong n) :
    isBetween low 1 (.int n) = false := by
  have hone : 1 < n.natAbs := lt_of_lt_of_le (Nat.one_lt_pow (by decide) (by decide)) h
  rw [isBetween, ← Bool.not_eq_true, Bool.and_eq_true, Number.le_int_iff, Number.le_int_iff]
  omega

/-- A parameter from zero to one fails to be checked exactly if it is a long whole number. -/
theorem fails_unitProblems_iff (key : String) (h : value.IsScalar) :
    Fails (unitProblems key value) ↔ ∃ n : ℤ, value = .int n ∧ IsLong n := by
  unfold unitProblems
  split
  · next x hx =>
    split_ifs with hnumeric hbetween
    · exact Value.fails_problem_iff h _
    · refine iff_of_false (not_fails_pure _) ?_
      rintro ⟨n, rfl, hlong⟩
      obtain rfl := Option.some.inj hx
      rw [not_isBetween_of_isLong (by decide) hlong] at hbetween
      cases hbetween
    · exact Value.fails_problem_iff h _
  · exact Value.fails_problem_iff h _

/-- A position in the stereo field fails to be checked exactly if it is a long whole number. -/
theorem fails_panProblems_iff (h : value.IsScalar) :
    Fails (panProblems value) ↔ ∃ n : ℤ, value = .int n ∧ IsLong n := by
  unfold panProblems
  split
  · exact Value.fails_problem_iff h _
  · exact Value.fails_problem_iff h _
  · exact Value.fails_problem_iff h _
  · exact Value.fails_problem_iff h _
  · split_ifs with hbetween
    · refine iff_of_false (not_fails_pure _) ?_
      rintro ⟨n, hn, hlong⟩
      obtain rfl := Value.number.inj hn
      rw [not_isBetween_of_isLong le_rfl hlong] at hbetween
      cases hbetween
    · exact Value.fails_problem_iff h _
  · split_ifs
    · exact iff_of_false (not_fails_pure _) (by simp)
    · exact (Value.fails_problem_iff h _).trans (by simp)

/-- A whole number is below zero exactly if it is. -/
theorem isBelowZero_int_iff {n : ℤ} : isBelowZero (.int n) = true ↔ n < 0 := by
  rw [← Number.isNegative_int_iff]
  simp [isBelowZero, Value.number?, Number.isNumeric]

/-- A parameter fails to be checked by its key exactly if it is a long whole number, and a time below
zero or one under the key that it is written with. -/
theorem fails_parameterProblems_iff (key : String) (h : value.IsScalar) :
    Fails (parameterProblems key value) ↔ ∃ n : ℤ, value = .int n ∧ IsLong n ∧
      (key ∈ beatKeys ∧ n < 0 ∨ (TimingKey.ofName? key).isSome = true) := by
  -- Times are stored under keys of their own.
  have hbeatKeys : ∀ key ∈ beatKeys, (TimingKey.ofName? key).isSome = false := by decide
  have hquiet {found : List Problem} (hnone : ∀ n : ℤ, value = .int n →
      ¬(key ∈ beatKeys ∧ n < 0 ∨ (TimingKey.ofName? key).isSome = true)) :
      Fails (pure found : Except Fault _) ↔ ∃ n : ℤ, value = .int n ∧ IsLong n ∧
        (key ∈ beatKeys ∧ n < 0 ∨ (TimingKey.ofName? key).isSome = true) :=
    iff_of_false (not_fails_pure _) fun ⟨n, hn, _, hkey⟩ => hnone n hn hkey
  have htold (problem : String → Problem) (hall : ∀ n : ℤ, value = .int n →
      (key ∈ beatKeys ∧ n < 0 ∨ (TimingKey.ofName? key).isSome = true)) :
      Fails (value.quoted >>= fun quoted => (pure [problem quoted] : Except Fault _)) ↔
        ∃ n : ℤ, value = .int n ∧ IsLong n ∧
          (key ∈ beatKeys ∧ n < 0 ∨ (TimingKey.ofName? key).isSome = true) := by
    rw [Value.fails_problem_iff h]
    exact exists_congr fun n => and_congr_right fun hn => (and_iff_left (hall n hn)).symm
  unfold parameterProblems
  simp only [List.contains_iff_mem]
  split_ifs with hfinite hbeats hsign htiming hbelow hmark hknown
  · refine htold _ ?_
    rintro n rfl
    simp [Value.isFinite, Number.isNumeric, Number.isFinite, Number.extended,
      Extended.isFinite] at hfinite
  · refine htold _ ?_
    rintro n rfl
    exact .inl ⟨hbeats, isBelowZero_int_iff.1 (by simpa [Value.isNumeric, Number.isNumeric] using hsign)⟩
  · refine hquiet ?_
    rintro n rfl (⟨-, hneg⟩ | htiming)
    · simp [isBelowZero_int_iff.2 hneg] at hsign
    · rw [hbeatKeys key hbeats] at htiming
      cases htiming
  · exact htold _ fun _ _ => .inr htiming
  · exact htold _ fun _ _ => .inr htiming
  all_goals exact hquiet fun n _ hkey => hkey.elim (fun hkey => hbeats hkey.1) htiming

/-! ## Cues -/

/-- The parameter of a key fails to be checked exactly if there is one and its value does. -/
theorem fails_problemsAt_iff {params : Params} {problems : Value → Except Fault (List Problem)} :
    Fails (problemsAt params key problems) ↔
      ∃ value, params.lookup key = some value ∧ Fails (problems value) := by
  unfold problemsAt
  cases params.lookup key <;> simp

/-- A list fails to be checked exactly if an element of it does. -/
theorem fails_gather_iff {α : Type} {check : α → Except Fault (List Problem)} {xs : List α} :
    Fails (gather check xs) ↔ ∃ x ∈ xs, Fails (check x) := by
  rw [gather, fails_bind_of_total fun _ _ => not_fails_pure _, fails_mapM_iff]

/-- A cue fails to be checked exactly if one of the checks of its parameters fails. -/
theorem fails_cueProblems_iff_checks {maxRepeat : ℕ} {names : Option Namespace} {cue : Cue} :
    Fails (cueProblems maxRepeat names cue) ↔
      (∃ value, cue.params.lookup "repeat" = some value ∧ Fails (repeatProblems maxRepeat value)) ∨
        (∃ key ∈ unitKeys, ∃ value, cue.params.lookup key = some value ∧
          Fails (unitProblems key value)) ∨
        (∃ value, cue.params.lookup "pan" = some value ∧ Fails (panProblems value)) ∨
        ∃ param ∈ cue.params, Fails (parameterProblems param.1 param.2) := by
  unfold cueProblems
  rw [fails_bind_iff_or fun _ => fails_bind_iff_or fun _ => fails_bind_iff_or fun _ =>
    fails_bind_of_total fun _ _ => not_fails_pure _]
  simp only [fails_problemsAt_iff, fails_gather_iff]

/-- The check of a cue that can stand in a document does not fail. -/
theorem not_fails_cueProblems (maxRepeat : ℕ) (names : Option Namespace) {cue : Cue}
    (h : cue.IsPlain) : ¬Fails (cueProblems maxRepeat names cue) := by
  have hplain {key : String} {value : Value} (hlookup : cue.params.lookup key = some value) :
      value.IsPlain := h _ (mem_of_lookup hlookup)
  rw [fails_cueProblems_iff_checks]
  rintro (⟨value, hvalue, hfails⟩ | ⟨key, -, value, hvalue, hfails⟩ | ⟨value, hvalue, hfails⟩ |
    ⟨param, hparam, hfails⟩)
  · obtain ⟨n, hn, hlong, -⟩ := (fails_repeatProblems_iff _ (hplain hvalue).isScalar).1 hfails
    exact (hplain hvalue).not_isLong hn hlong
  · obtain ⟨n, hn, hlong⟩ := (fails_unitProblems_iff _ (hplain hvalue).isScalar).1 hfails
    exact (hplain hvalue).not_isLong hn hlong
  · obtain ⟨n, hn, hlong⟩ := (fails_panProblems_iff (hplain hvalue).isScalar).1 hfails
    exact (hplain hvalue).not_isLong hn hlong
  · obtain ⟨n, hn, hlong, -⟩ := (fails_parameterProblems_iff _ (h param hparam).isScalar).1 hfails
    exact (h param hparam).not_isLong hn hlong

/-! ## Songs -/

/-- The problems of a song as a whole are those of its sections, its tempo and its number of beats in a
bar. -/
theorem songProblems_eq (song : Song) :
    songProblems song =
      (if isTempo song.bpm then pure []
        else song.bpm.quoted >>= fun s => pure [Problem.bpm s]) >>= fun bpm =>
      (if isCount song.beatsPerBar then pure []
        else song.beatsPerBar.quoted >>= fun s => pure [Problem.beatsPerBar s]) >>= fun beats =>
      pure ((if song.sections.isEmpty then [Problem.emptySong] else []) ++ bpm ++ beats) := by
  unfold songProblems
  dsimp only
  cases isTempo song.bpm <;> cases isCount song.beatsPerBar <;> simp

/-- A song as a whole fails to be checked exactly if its tempo or its number of beats in a bar is a long
whole number below one. -/
theorem fails_songProblems_iff (hbpm : song.bpm.IsScalar) (hbeats : song.beatsPerBar.IsScalar) :
    Fails (songProblems song) ↔ (∃ n : ℤ, song.bpm = .int n ∧ IsLong n ∧ n < 1) ∨
      ∃ n : ℤ, song.beatsPerBar = .int n ∧ IsLong n ∧ n < 1 := by
  have hguard {value : Value} (hvalue : value.IsScalar) {accepts : Value → Bool}
      (haccepts : ∀ n : ℤ, accepts (.int n) = true ↔ 1 ≤ n) (problem : String → Problem) :
      Fails (if accepts value then pure []
        else value.quoted >>= fun s => (pure [problem s] : Except Fault _)) ↔
          ∃ n : ℤ, value = .int n ∧ IsLong n ∧ n < 1 := by
    split_ifs with haccepted
    · refine iff_of_false (not_fails_pure _) ?_
      rintro ⟨n, rfl, -, hlow⟩
      exact absurd ((haccepts n).1 haccepted) (not_le.2 hlow)
    · rw [Value.fails_problem_iff hvalue]
      refine exists_congr fun n => and_congr_right fun hn => (and_iff_left ?_).symm
      exact not_le.1 fun hle => haccepted (hn ▸ (haccepts n).2 hle)
  have hisTempo (n : ℤ) : isTempo (.int n) = true ↔ 1 ≤ n := by
    rw [← Number.isPositive_int_iff]
    simp [isTempo, Value.number?, Number.isTempo, Number.isNumeric, Number.isFinite,
      Number.extended, Extended.isFinite]
  rw [songProblems_eq, fails_bind_iff_or fun _ => fails_bind_of_total fun _ _ => not_fails_pure _,
    hguard hbpm hisTempo, hguard hbeats fun n => by simp [isCount]]

/-- A sound song as a whole has the problem of being empty, or none. -/
theorem songProblems_of_isSound (h : song.IsSound) :
    songProblems song = .ok (if song.sections.isEmpty then [.emptySong] else []) := by
  obtain ⟨bpm, hbpm, htempo, -⟩ := h.bpm
  obtain ⟨beats, hbeats, hpositive⟩ := h.beatsPerBar
  have hisTempo : isTempo song.bpm = true := by rw [hbpm]; exact htempo
  have hisCount : isCount song.beatsPerBar = true := by
    rw [hbeats]
    simpa [isCount] using Nat.succ_le_of_lt hpositive
  unfold songProblems
  simp [hisTempo, hisCount]

/-- The tempo map of a song with a tempo fails to be checked exactly if the check of its segments ends
with another fault than a conflict: a conflict is a problem. -/
theorem fails_tempoProblems_iff {ρ : Rounding} :
    Fails (tempoProblems ρ song) ↔
      isTempo song.bpm = true ∧ ¬ConflictsOnly (checkSegments ρ song.segments) := by
  unfold tempoProblems
  split_ifs with hbpm
  · exact iff_of_false (not_fails_pure _) fun h => by simp [h.1] at hbpm
  · rw [and_iff_right (by simpa using hbpm)]
    split
    · next segments hsegments =>
      exact iff_of_false (not_fails_pure _) fun h => h fun fault hfault => by
        rw [hsegments] at hfault
        cases hfault
    · next why start hconflict =>
      exact iff_of_false (not_fails_pure _) fun h => h fun fault hfault =>
        ⟨why, start, Except.error.inj (hfault.symm.trans hconflict)⟩
    · next fault hno hfault =>
      refine iff_of_true (fails_throw _) fun h => ?_
      obtain ⟨why, start, rfl⟩ := h fault hfault
      exact hno why start rfl

/-- The check of the tempo map of a song with kept tempos does not fail. -/
theorem not_fails_tempoProblems (h : song.HasKeptTempos) :
    ¬Fails (tempoProblems .binary64 song) :=
  fun hfails => (fails_tempoProblems_iff.1 hfails).2 h.conflictsOnly_checkSegments

/-- The check of an item that can stand in a document does not fail. -/
theorem not_fails_itemDiagnostics (config : Config) (names : Option Namespace) {item : Item}
    (h : item.IsPlain) : ¬Fails (itemDiagnostics config names item) := by
  cases item with
  | performance | lyric | raw => exact not_fails_pure _
  | cue cue line =>
    rw [itemDiagnostics, fails_bind_of_total fun _ _ => not_fails_pure _]
    exact not_fails_cueProblems _ names h

end Validation

/-- The validation of a song fails exactly if the check of the song as a whole, that of its tempo map or
that of an item does. -/
theorem fails_validate_iff_checks {ρ : Rounding} {config : Config} {names : Option Namespace}
    {song : Song} : Fails (validate ρ config names song) ↔ Fails (Validation.songProblems song) ∨
      Fails (Validation.tempoProblems ρ song) ∨ ∃ item ∈ song.sections.flatMap (·.items),
        Fails (Validation.itemDiagnostics config names item) := by
  unfold validate
  rw [fails_bind_iff_or fun _ => fails_bind_iff_or fun _ =>
    fails_bind_of_total fun _ _ => not_fails_pure _, fails_mapM_iff]

/-- The validation of a song with kept tempos fails exactly if the check of the song as a whole or that
of an item does. -/
theorem fails_validate_iff (config : Config) (names : Option Namespace) {song : Song}
    (h : song.HasKeptTempos) : Fails (validate .binary64 config names song) ↔
      Fails (Validation.songProblems song) ∨ ∃ item ∈ song.sections.flatMap (·.items),
        Fails (Validation.itemDiagnostics config names item) := by
  rw [fails_validate_iff_checks, or_iff_right (Validation.not_fails_tempoProblems h)]

/-- The validation of a sound song does not fail. -/
theorem not_fails_validate (config : Config) (names : Option Namespace) {song : Song}
    (h : song.IsSound) : ¬Fails (validate .binary64 config names song) := by
  rw [fails_validate_iff config names h.hasKeptTempos, not_or]
  constructor
  · rw [Validation.songProblems_of_isSound h]
    exact not_fails_ok _
  · rintro ⟨item, hitem, hfails⟩
    obtain ⟨part, hpart, hitem⟩ := List.mem_flatMap.1 hitem
    exact Validation.not_fails_itemDiagnostics config names (h.items part hpart item hitem) hfails

end CueSheet
