import CueSheet.Proofs.Cue.Accounted
import CueSheet.Proofs.Cue.Seconds

/-!
# Where the parameters of a cue come from

Each parameter of a cue comes from one token of its body, the first one that is stored under its key
(`CueBody.origin_of_read`). The tempo is used for a parameter only if this token is a time in
seconds or in milliseconds. So at two tempos `p` and `q`, with exact arithmetic, a cue is the same
but for the parameters that come from such times, and these are multiplied by `q / p`
(`CueBody.read_atTempo`).
-/

namespace CueSheet

open Text (lowered)

/-- Whether a spelling is one of seconds or of milliseconds. -/
def TimeUnit.countsSeconds (spelling : String) : Bool :=
  (ofSpelling? (lowered spelling)).any fun unit => unit = .seconds || unit = .milliseconds

/-- A value so many times as large, if it is a quantity. -/
def Value.scaled (r : ℚ) : Value → Value
  | .number x => .number (x.scaled r)
  | value => value

namespace CueBody

/-- Whether a token is a time in seconds or in milliseconds: it names such a unit, or it names none
and its key is not the one that counts beats. -/
def isInSeconds (token : List Char) : Bool :=
  (timing? (keyOf token) (rawOf token)).any fun (timingKey, duration) =>
    match duration.unit with
    | none => timingKey != .startBeat
    | some unit => unit == "ms" || unit == "s"

/-- The token that a stored parameter comes from: the first parameter that is stored under its key.
-/
def origin? (tokens : List (List Char)) (key : String) : Option (List Char) :=
  tokens.find? fun token => isParameter token && storedKey token == key

/-- Whether a parameter comes from a time in seconds or in milliseconds. -/
def isFromSeconds (tokens : List (List Char)) (key : String) : Bool :=
  (origin? tokens key).any isInSeconds

end CueBody

/-- The cue of a body at a tempo so many times as fast: what comes from times in seconds or in
milliseconds is so many times as large. -/
def Cue.atTempo (body : List Char) (r : ℚ) (cue : Cue) : Cue :=
  { cue with
    params := cue.params.map fun (key, value) =>
      (key, if CueBody.isFromSeconds (CueBody.head (Token.split body)).rest key then value.scaled r
        else value) }

/-! ## Origins -/

namespace CueBody

variable {ρ : Rounding} {bpm beatsPerBar : Value} {tokens : List (List Char)}

/-- With one more token, a parameter comes from the token that it came from before, or else from
this one if it is stored under its key. -/
theorem origin?_concat (tokens : List (List Char)) (token : List Char) (key : String) :
    origin? (tokens ++ [token]) key =
      (origin? tokens key).or
        (if isParameter token && storedKey token == key then some token else none) := by
  rw [origin?, List.find?_append, List.find?_singleton]
  rfl

/-- The first parameter under a key is the one that the key comes from. The induction is on the tokens
from the last one, because whether a token is the first one depends on those before it. -/
theorem origin?_of_mem_firsts {first : List Char} (h : first ∈ firsts tokens) :
    origin? tokens (storedKey first) = some first := by
  induction tokens using List.reverseRecOn with
  | nil => cases h
  | append_singleton tokens token ih =>
    rw [firsts_concat, List.mem_append] at h
    rw [origin?_concat]
    rcases h with hbefore | hlast
    · rw [ih hbefore, Option.some_or]
    · obtain ⟨hfirst, hlast⟩ := List.mem_ite_nil_right.1 hlast
      obtain rfl := List.mem_singleton.1 hlast
      have hargument := isArgument_of_isFirst hfirst
      have hnone : origin? tokens (storedKey first) = none := by
        refine List.find?_eq_none.2 fun earlier hearlier hfound => ?_
        rw [Bool.and_eq_true, isParameter_eq, Bool.not_eq_true', beq_iff_eq] at hfound
        exact (isFirst_iff hargument).1 hfirst ⟨earlier, hearlier, hfound⟩
      rw [hnone, isParameter_eq, hargument, beq_self_eq_true]
      rfl

/-- The parameters of a cue come from the tokens of its body. -/
theorem origin_of_read {body : List Char} {said : CueBody}
    (h : read ρ bpm beatsPerBar body = .ok said) :
    ∀ param ∈ said.cue.params, ∃ token,
      origin? (head (Token.split body)).rest param.1 = some token ∧
      readParameter ρ bpm beatsPerBar (keyOf token) (rawOf token) = .ok param := by
  obtain ⟨details, hdetails, h⟩ := bind_eq_ok.1 h
  obtain rfl := pure_eq_ok_iff.1 h
  intro param hparam
  obtain ⟨token, htoken, hkey, hread⟩ :=
    exists_of_mem_right (accounts_of_foldlM hdetails).params hparam
  exact ⟨token, hkey ▸ origin?_of_mem_firsts htoken, hread⟩

end CueBody

/-! ## Two tempos -/

variable {p q : Number} {P Q : ℚ} {beatsPerBar : Value}

/-- A spelling of seconds or of milliseconds is none of beats or of bars. -/
theorem TimeUnit.countsBeats_of_countsSeconds {spelling : String}
    (h : countsSeconds spelling = true) : countsBeats spelling = false := by
  unfold countsSeconds at h
  unfold countsBeats
  cases hunit : ofSpelling? (lowered spelling) with
  | none => rfl
  | some unit =>
    rw [hunit] at h
    cases unit with
    | seconds | milliseconds => rfl
    | beats | bars => cases h

/-- A time is in seconds or in milliseconds exactly if its unit, or else the unit of a bare number,
counts them. -/
theorem CueBody.isInSeconds_eq {token : List Char} {timingKey : TimingKey} {duration : Duration}
    (h : timing? (keyOf token) (rawOf token) = some (timingKey, duration)) :
    isInSeconds token = TimeUnit.countsSeconds (duration.unit.getD timingKey.bareUnit) := by
  obtain ⟨amount, unit?⟩ := duration
  rw [isInSeconds, h, Option.any_some]
  cases unit? with
  | none =>
    dsimp only
    cases timingKey <;> decide
  | some unit =>
    dsimp only [Option.getD_some]
    rcases Duration.unit_of_ofText? (ofText?_of_timing? h).2 unit rfl with
      ⟨-, hword⟩ | ⟨hlong, hnone⟩
    · have hwords : ∀ word ∈ TimeUnit.words,
          (word == "ms" || word == "s") = TimeUnit.countsSeconds word := by decide
      exact hwords unit hword
    · -- The long s is a letter of no unit.
      have hne {word : String} (hword : 'ſ' ∉ word.toList) : (unit == word) = false :=
        beq_eq_false_iff_ne.2 fun heq => hword (heq ▸ hlong)
      have hms : 'ſ' ∉ "ms".toList := by decide
      have hs : 'ſ' ∉ "s".toList := by decide
      rw [TimeUnit.countsSeconds, hnone, hne hms, hne hs]
      rfl

/-- An amount that is neither in seconds nor in milliseconds becomes the same beats at any tempo. -/
theorem toBeats_eq {ρ : Rounding} {amount : Value} (hp : p.isPositive = true)
    (hq : q.isPositive = true) {spelling : String} (hne : spelling ≠ "")
    (hspelling : TimeUnit.countsSeconds spelling = false) :
    toBeats ρ amount (some spelling) (.number p) beatsPerBar =
      toBeats ρ amount (some spelling) (.number q) beatsPerBar := by
  unfold TimeUnit.countsSeconds at hspelling
  cases hunit : TimeUnit.ofSpelling? (lowered spelling) with
  | none =>
    rw [TimeUnit.toBeats_of_not_found hne hunit, TimeUnit.toBeats_of_not_found hne hunit,
      Duration.requireTempo_of_isPositive hp, Duration.requireTempo_of_isPositive hq]
    rfl
  | some unit =>
    rw [TimeUnit.toBeats_of_found hunit, TimeUnit.toBeats_of_found hunit,
      Duration.requireTempo_of_isPositive hp, Duration.requireTempo_of_isPositive hq]
    cases unit with
    | seconds | milliseconds => simp [hunit] at hspelling
    | beats | bars => rfl

/-- A parameter is the same at two tempos, unless it is in seconds or in milliseconds: then it is
scaled like the tempo. -/
theorem readParameter_atTempo (hp : p.toRat? = some P) (hP : 0 < P) (hq : q.toRat? = some Q)
    (hQ : 0 < Q) (token : List Char) :
    Agree Eq
      (fun param param' => param' =
        (param.1, if CueBody.isInSeconds token then param.2.scaled (Q / P) else param.2))
      (readParameter .exact (.number p) beatsPerBar (CueBody.keyOf token) (CueBody.rawOf token))
      (readParameter .exact (.number q) beatsPerBar (CueBody.keyOf token)
        (CueBody.rawOf token)) := by
  unfold readParameter
  cases htiming : timing? (CueBody.keyOf token) (CueBody.rawOf token) with
  | none =>
    have hnone : ¬CueBody.isInSeconds token = true := by simp [CueBody.isInSeconds, htiming]
    exact .refl fun _ _ => by rw [if_neg hnone]
  | some timing =>
    obtain ⟨timingKey, duration⟩ := timing
    have hne := unit_ne_of_timing? htiming
    have hcounts := CueBody.isInSeconds_eq htiming
    obtain ⟨a, ha, hreal⟩ := duration.amount.exists_real_exact
    unfold Duration.toBeats
    dsimp only
    rw [hreal]
    by_cases hseconds : CueBody.isInSeconds token = true
    · have hbeats := TimeUnit.countsBeats_of_countsSeconds (hcounts.symm.trans hseconds)
      refine (toBeats_agree hp hP hq hQ ha hne hbeats).bind fun x x' hx => .ok ?_
      rw [if_pos hseconds, hx.eq_scaled]
      rfl
    · rw [toBeats_eq ((Number.isPositive_iff hp).2 hP) ((Number.isPositive_iff hq).2 hQ) hne
        (hcounts.symm.trans (Bool.eq_false_iff.2 hseconds))]
      exact .refl fun _ _ => by rw [if_neg hseconds]

/-- A cue is the same at two tempos but for what comes from times in seconds or in milliseconds,
which is scaled like the tempo, and it has the same problems. -/
theorem CueBody.read_atTempo (hp : p.toRat? = some P) (hP : 0 < P) (hq : q.toRat? = some Q)
    (hQ : 0 < Q) (body : List Char) :
    Agree Eq (fun said said' => said' = { said with cue := said.cue.atTempo body (Q / P) })
      (read .exact (.number p) beatsPerBar body) (read .exact (.number q) beatsPerBar body) := by
  have hbeside : Agree Eq (Beside (Cue.Beside fun param param' => param.1 = param'.1))
      (read .exact (.number p) beatsPerBar body) (read .exact (.number q) beatsPerBar body) := by
    refine read_agree (fun _ _ hkey => hkey) fun token _ _ => ?_
    refine (readParameter_atTempo hp hP hq hQ token).mono fun param param' h => ?_
    rw [h]
  refine hbeside.mono_ok fun said said' hsaid hsaid' h => ?_
  -- Parameters with one key come from one token at both tempos.
  have hparams : List.Forall₂ (fun param param' => param' =
      (param.1, if isFromSeconds (head (Token.split body)).rest param.1
        then param.2.scaled (Q / P) else param.2)) said.cue.params said'.cue.params := by
    refine (forall₂_mem h.cue.params).imp fun param param' hmem => ?_
    obtain ⟨hparam, hparam', hkey⟩ := hmem
    obtain ⟨token, htoken, hread⟩ := origin_of_read hsaid param hparam
    obtain ⟨token', htoken', hread'⟩ := origin_of_read hsaid' param' hparam'
    rw [← hkey, htoken, Option.some.injEq] at htoken'
    subst htoken'
    rw [isFromSeconds, htoken, Option.any_some]
    exact (readParameter_atTempo hp hP hq hQ token).related hread hread'
  calc said'
    _ = ⟨⟨said'.cue.name, said'.cue.category, said'.cue.params, said'.cue.args⟩,
        said'.problems⟩ := rfl
    _ = { said with cue := said.cue.atTempo body (Q / P) } := by
      rw [← h.cue.name, ← h.cue.category, ← h.cue.args, ← h.problems, eq_map_of_forall₂ hparams]
      rfl

end CueSheet
