import CueSheet.Proofs.Cue.Beside
import CueSheet.Proofs.Cue.Stumble
import CueSheet.Proofs.Numeric.Exact
import CueSheet.Validation

/-!
# Times in seconds at two tempos

A duration in seconds or milliseconds is turned into beats by a product with the tempo. So with
exact arithmetic the beats at a tempo `q` are those at a tempo `p` times `q / p` (`toBeats_agree`),
and a cue that says nothing in beats is stored the same at both tempos, up to that factor
(`CueBody.read_scales`).
-/

namespace CueSheet

open Text (lowered)
open Validation (beatKeys)

/-- A real number of at least zero, and the real number that is so many times as large. -/
def Number.Scales (r : ℚ) (x y : Number) : Prop :=
  ∃ b : ℚ, 0 ≤ b ∧ x = .real (.finite b) ∧ y = .real (.finite (b * r))

/-- A quantity so many times as large, as a real number. -/
def Number.scaled (r : ℚ) (x : Number) : Number :=
  match x.toRat? with
  | some q => .real (.finite (q * r))
  | none => x

/-- Of two quantities on a scale, the second one is the first one scaled. -/
theorem Number.Scales.eq_scaled {r : ℚ} {x y : Number} (h : x.Scales r y) : y = x.scaled r := by
  obtain ⟨b, -, rfl, rfl⟩ := h
  rfl

/-- Two parameters are stored under one key. If the key holds beats, the second one has so many
times the beats of the first one, and otherwise they are the same. -/
structure Stored.Scales (r : ℚ) (param param' : String × Value) : Prop where
  /-- The keys are the same. -/
  key : param.1 = param'.1
  /-- Beats are scaled. -/
  beats : param.1 ∈ beatKeys →
    ∃ x x', param.2 = .number x ∧ param'.2 = .number x' ∧ x.Scales r x'
  /-- Everything else is the same. -/
  other : param.1 ∉ beatKeys → param.2 = param'.2

/-- Whether a spelling is one of beats or of bars. -/
def TimeUnit.countsBeats (spelling : String) : Bool :=
  (ofSpelling? (lowered spelling)).any fun unit => unit = .beats || unit = .bars

/-- Whether a token of a cue says nothing in beats: if it is a parameter, then its key is none under
which beats are stored, and a time in it is neither in beats nor in bars. -/
def CueBody.isFreeOfBeats (token : List Char) : Bool :=
  !isParameter token || !beatKeys.contains (keyOf token) &&
    (timing? (keyOf token) (rawOf token)).all fun (timingKey, duration) =>
      !TimeUnit.countsBeats (duration.unit.getD timingKey.bareUnit)

/-- Beats are stored under the keys of beats. -/
theorem TimingKey.stored_mem_beatKeys (timingKey : TimingKey) : timingKey.stored ∈ beatKeys := by
  cases timingKey <;> decide

/-- A literal is a rational of at least zero. -/
theorem Literal.exists_real_exact (literal : Literal) :
    ∃ a : ℚ, 0 ≤ a ∧ literal.real .exact = .finite a := by
  refine ⟨_, ?_, rfl⟩
  rw [Rat.mkRat_eq_div]
  positivity

variable {p q : Number} {P Q a : ℚ} {beatsPerBar beatsPerBar' : Value}

/-- A real number of at least zero is divided by the number of seconds in a minute without a sign.
-/
theorem real_div_sixty (ha : 0 ≤ a) :
    Number.div .exact (.real (.finite a)) (.int 60) = .ok (.real (.finite (a / 60))) :=
  Number.real_div_exact ha rfl (by norm_num)

/-- So many seconds at a tempo become a product with the tempo. -/
theorem TimeUnit.convert_seconds (ha : 0 ≤ a) (hp : p.toRat? = some P) (hP : 0 < P) :
    seconds.convert .exact (.number (.real (.finite a))) p beatsPerBar =
      .ok (.real (.finite (a * P / 60))) := by
  rw [convert, Value.mul_number, Number.real_mul_exact ha (Number.toReal_exact hp hP) hP.le]
  exact real_div_sixty (mul_nonneg ha hP.le)

/-- So many milliseconds at a tempo become a product with the tempo. -/
theorem TimeUnit.convert_milliseconds (ha : 0 ≤ a) (hp : p.toRat? = some P) (hP : 0 < P) :
    milliseconds.convert .exact (.number (.real (.finite a))) p beatsPerBar =
      .ok (.real (.finite (a / 1000 * P / 60))) := by
  have hseconds : 0 ≤ a / 1000 := by positivity
  have hdiv : Number.div .exact (.real (.finite a)) (.int 1000) =
      .ok (.real (.finite (a / 1000))) := Number.real_div_exact ha rfl (by norm_num)
  rw [convert, Value.div_number, hdiv, ok_bind,
    Number.real_mul_exact hseconds (Number.toReal_exact hp hP) hP.le]
  exact real_div_sixty (mul_nonneg hseconds hP.le)

/-- An amount that is neither in beats nor in bars becomes beats that are scaled like the tempo. -/
theorem toBeats_agree (hp : p.toRat? = some P) (hP : 0 < P) (hq : q.toRat? = some Q) (hQ : 0 < Q)
    (ha : 0 ≤ a) {spelling : String} (hne : spelling ≠ "")
    (hspelling : TimeUnit.countsBeats spelling = false) :
    Agree Eq (Number.Scales (Q / P))
      (toBeats .exact (.number (.real (.finite a))) (some spelling) (.number p) beatsPerBar)
      (toBeats .exact (.number (.real (.finite a))) (some spelling) (.number q) beatsPerBar') := by
  -- So many seconds are `s * P / 60` beats at the one tempo and `s * Q / 60` at the other.
  have hscales (s : ℚ) (hs : 0 ≤ s) :
      Number.Scales (Q / P) (.real (.finite (s * P / 60))) (.real (.finite (s * Q / 60))) := by
    refine ⟨s * P / 60, by positivity, rfl, ?_⟩
    congr 2
    field_simp
  have hpTempo := Duration.requireTempo_of_isPositive ((Number.isPositive_iff hp).2 hP)
  have hqTempo := Duration.requireTempo_of_isPositive ((Number.isPositive_iff hq).2 hQ)
  unfold TimeUnit.countsBeats at hspelling
  cases hunit : TimeUnit.ofSpelling? (lowered spelling) with
  | none =>
    rw [TimeUnit.toBeats_of_not_found hne hunit, TimeUnit.toBeats_of_not_found hne hunit, hpTempo,
      hqTempo]
    exact .fault rfl
  | some unit =>
    rw [TimeUnit.toBeats_of_found hunit, TimeUnit.toBeats_of_found hunit, hpTempo, hqTempo, ok_bind,
      ok_bind]
    cases unit with
    | beats | bars => simp [hunit] at hspelling
    | seconds =>
      rw [TimeUnit.convert_seconds ha hp hP, TimeUnit.convert_seconds ha hq hQ]
      exact .ok (hscales a ha)
    | milliseconds =>
      rw [TimeUnit.convert_milliseconds ha hp hP, TimeUnit.convert_milliseconds ha hq hQ]
      exact .ok (hscales _ (by positivity))

/-- The unit of a time is not spelled as an empty text. -/
theorem unit_ne_of_timing? {key : String} {raw : List Char} {timingKey : TimingKey}
    {duration : Duration} (h : timing? key raw = some (timingKey, duration)) :
    duration.unit.getD timingKey.bareUnit ≠ "" := by
  cases hunit : duration.unit with
  | none => cases timingKey <;> decide
  | some unit =>
    rw [Option.getD_some]
    rintro rfl
    rcases Duration.unit_of_ofText? (ofText?_of_timing? h).2 "" hunit with ⟨-, hword⟩ | ⟨hlong, -⟩
    · revert hword
      decide
    · cases hlong

/-- A parameter that says nothing in beats is stored the same at two tempos, but for its beats. -/
theorem readParameter_agree (hp : p.toRat? = some P) (hP : 0 < P) (hq : q.toRat? = some Q)
    (hQ : 0 < Q) {token : List Char} (htoken : CueBody.isParameter token = true)
    (hfree : CueBody.isFreeOfBeats token = true) :
    Agree Eq (Stored.Scales (Q / P))
      (readParameter .exact (.number p) beatsPerBar (CueBody.keyOf token) (CueBody.rawOf token))
      (readParameter .exact (.number q) beatsPerBar' (CueBody.keyOf token)
        (CueBody.rawOf token)) := by
  simp only [CueBody.isFreeOfBeats, htoken, Bool.not_true, Bool.false_or, Bool.and_eq_true,
    Bool.not_eq_true', List.contains_eq_mem, decide_eq_false_iff_not] at hfree
  obtain ⟨hkey, hunit⟩ := hfree
  unfold readParameter
  -- A time in seconds scales, and what is no time is read without the tempo.
  cases htiming : timing? (CueBody.keyOf token) (CueBody.rawOf token) with
  | some timing =>
    obtain ⟨timingKey, duration⟩ := timing
    rw [htiming, Option.all_some, Bool.not_eq_true'] at hunit
    obtain ⟨a, ha, hreal⟩ := duration.amount.exists_real_exact
    unfold Duration.toBeats
    dsimp only
    rw [hreal]
    refine (toBeats_agree hp hP hq hQ ha (unit_ne_of_timing? htiming) hunit).bind fun x x' hx =>
      .ok ⟨rfl, fun _ => ?_, fun h => ?_⟩
    · exact ⟨x, x', rfl, rfl, hx⟩
    · exact absurd timingKey.stored_mem_beatKeys h
  | none =>
    have hsame : Agree Eq Eq (Value.ofRaw .exact (CueBody.rawOf token))
        (Value.ofRaw .exact (CueBody.rawOf token)) := .refl fun _ _ => rfl
    exact hsame.bind fun v w hvw => .ok ⟨rfl, fun h => absurd h hkey, fun _ => hvw⟩

/-- A cue that says nothing in beats says the same at two tempos, but for the beats that are stored.
-/
theorem CueBody.read_scales (hp : p.toRat? = some P) (hP : 0 < P) (hq : q.toRat? = some Q)
    (hQ : 0 < Q) {body : List Char}
    (hfree : (head (Token.split body)).rest.all isFreeOfBeats = true) :
    Agree Eq (Beside (Cue.Beside (Stored.Scales (Q / P))))
      (read .exact (.number p) beatsPerBar body)
      (read .exact (.number q) beatsPerBar' body) := by
  rw [List.all_eq_true] at hfree
  exact read_agree (fun _ _ h => h.key) fun token htoken hparameter =>
    readParameter_agree hp hP hq hQ hparameter (hfree token htoken)

end CueSheet
