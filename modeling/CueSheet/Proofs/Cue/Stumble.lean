import CueSheet.Proofs.Cue.Details
import CueSheet.Proofs.Duration
import CueSheet.Proofs.Text.Digit

/-!
# Where the reading of a cue fails

The value of a parameter fails to be read where it looks like a whole number of more digits than are
read (`IsOverlong`), or, under a key that holds times, where it is a duration that cannot be
converted. A cue fails to be read exactly if one of its parameters does (`CueBody.fails_read_iff`);
no head, argument or quote makes it fail.
-/

namespace CueSheet

open Text (isDigit digitValues)

/-- A text is a whole number, with a sign or without, of more digits than are read. One line feed
may follow it. -/
def IsOverlong (text : List Char) : Prop :=
  ∃ sign digits feed, text = sign ++ (digits ++ feed) ∧ sign ∈ [[], ['-'], ['+']] ∧
    (∀ c ∈ digits, isDigit c = true) ∧ digitLimit < digits.length ∧ feed ∈ [[], ['\n']]

namespace Value

/-- A sign that is taken stood in front of the text. -/
theorem exists_sign (text : List Char) :
    ∃ sign ∈ [[], ['-'], ['+']], text = sign ++ (takeSign text).2 := by
  unfold takeSign
  split
  · exact ⟨['-'], by simp, rfl⟩
  · exact ⟨['+'], by simp, rfl⟩
  · exact ⟨[], by simp, rfl⟩

/-- A line feed that is dropped stood at the end of the text. -/
theorem exists_feed (text : List Char) :
    ∃ feed ∈ [[], ['\n']], text = dropFinalFeed text ++ feed := by
  unfold dropFinalFeed
  split_ifs with h
  · exact ⟨['\n'], by simp, (List.dropLast_append_getLast? _ h).symm⟩
  · exact ⟨[], by simp, (List.append_nil _).symm⟩

/-- A text of digits has no sign to take, and the sign in front of it is taken. -/
theorem takeSign_append {sign digits : List Char} (hsign : sign ∈ [[], ['-'], ['+']])
    (hdigits : ∀ c ∈ digits, isDigit c = true) : (takeSign (sign ++ digits)).2 = digits := by
  simp only [List.mem_cons, List.not_mem_nil, or_false] at hsign
  rcases hsign with rfl | rfl | rfl
  · rw [List.nil_append]
    unfold takeSign
    split
    · exact absurd (hdigits '-' List.mem_cons_self) (by decide)
    · exact absurd (hdigits '+' List.mem_cons_self) (by decide)
    · rfl
  · rfl
  · rfl

/-- A line feed after digits is dropped, and nothing else. -/
theorem dropFinalFeed_append {before digits feed : List Char} (hne : digits ≠ [])
    (hdigits : ∀ c ∈ digits, isDigit c = true) (hfeed : feed ∈ [[], ['\n']]) :
    dropFinalFeed (before ++ (digits ++ feed)) = before ++ digits := by
  simp only [List.mem_cons, List.not_mem_nil, or_false] at hfeed
  unfold dropFinalFeed
  rcases hfeed with rfl | rfl
  · rw [List.append_nil, if_neg]
    rw [List.getLast?_append_of_ne_nil _ hne]
    intro hlast
    exact absurd (hdigits _ (List.mem_of_getLast? hlast)) (by decide)
  · rw [← List.append_assoc, List.getLast?_append, List.getLast?_singleton, Option.some_or,
      if_pos rfl, List.dropLast_append_of_ne_nil (by simp)]
    simp

/-- The digits of a whole number are those of its text. -/
theorem wholeDigits?_eq_some_iff {text : List Char} {values : List ℕ} :
    wholeDigits? text = some values ↔
      text ≠ [] ∧ (∀ c ∈ text, isDigit c = true) ∧ digitValues text = values := by
  unfold wholeDigits?
  simp [and_assoc]

/-- The number that a text looks like fails to be read exactly if the text is a whole number of too
many digits. -/
theorem fails_of_readNumber?_iff {ρ : Rounding} {text : List Char} :
    (∃ read, readNumber? ρ text = some read ∧ Fails read) ↔ IsOverlong text := by
  unfold readNumber?
  dsimp only
  constructor
  · rintro ⟨read, hread, hfails⟩
    split at hread
    · next values hvalues =>
      obtain ⟨hne, hdigits, hvalues⟩ := wholeDigits?_eq_some_iff.1 hvalues
      obtain rfl := Option.some.inj hread
      rw [fails_bind_of_total fun _ _ => not_fails_pure _, fails_readDigits_iff, ← hvalues,
        Text.length_digitValues hdigits] at hfails
      obtain ⟨sign, hsign, htext⟩ := exists_sign (dropFinalFeed text)
      obtain ⟨feed, hfeed, hwhole⟩ := exists_feed text
      refine ⟨sign, _, feed, ?_, hsign, hdigits, hfails, hfeed⟩
      rw [← List.append_assoc, ← htext]
      exact hwhole
    · -- Digits with a point are rounded, however many they are.
      obtain ⟨⟨whole, fraction⟩, -, rfl⟩ := Option.map_eq_some_iff.1 hread
      exact absurd hfails (not_fails_pure _)
  · rintro ⟨sign, digits, feed, rfl, hsign, hdigits, hlength, hfeed⟩
    have hne : digits ≠ [] := by
      rintro rfl
      simp at hlength
    rw [dropFinalFeed_append hne hdigits hfeed, takeSign_append hsign hdigits,
      wholeDigits?_eq_some_iff.2 ⟨hne, hdigits, rfl⟩]
    refine ⟨_, rfl, ?_⟩
    rw [fails_bind_of_total fun _ _ => not_fails_pure _, fails_readDigits_iff,
      Text.length_digitValues hdigits]
    exact hlength

/-- A whole number has no quotes. -/
theorem not_mem_of_isOverlong {text : List Char} (h : IsOverlong text) : '"' ∉ text := by
  obtain ⟨sign, digits, feed, rfl, hsign, hdigits, -, hfeed⟩ := h
  have hquote : '"' ∉ digits := fun hmem => absurd (hdigits _ hmem) (by decide)
  simp only [List.mem_cons, List.not_mem_nil, or_false] at hsign hfeed
  rcases hsign with rfl | rfl | rfl <;> rcases hfeed with rfl | rfl <;> simp [hquote]

/-- A raw value fails to be read exactly if it is a whole number of too many digits. -/
theorem fails_ofRaw_iff {ρ : Rounding} {raw : List Char} : Fails (ofRaw ρ raw) ↔ IsOverlong raw := by
  unfold ofRaw
  by_cases hquote : '"' ∈ raw
  · have hnot : ¬IsOverlong raw := fun h => not_mem_of_isOverlong h hquote
    simp [hquote, hnot]
  · rw [if_neg (by simpa using hquote), ← fails_of_readNumber?_iff (ρ := ρ)]
    cases hread : readNumber? ρ raw with
    | some read => simp [fails_map_iff]
    | none =>
      dsimp only
      split_ifs <;> simp

end Value

/-- A parameter cannot be read: it is a time that cannot be converted, or it is no time and a whole
number of too many digits. -/
def ParameterStumbles (beatsPerBar : ℕ) (key : String) (raw : List Char) : Prop :=
  match timing? key raw with
  | some (_, duration) => duration.Stumbles beatsPerBar
  | none => IsOverlong raw

/-- A cue cannot be read: a token after its head is a parameter that cannot be read. -/
def CueStumbles (beatsPerBar : ℕ) (body : List Char) : Prop :=
  ∃ token ∈ (CueBody.head (Token.split body)).rest, CueBody.isParameter token = true ∧
    ParameterStumbles beatsPerBar (CueBody.keyOf token) (CueBody.rawOf token)

variable {bpm : Number} {beatsPerBar : ℕ}

/-- A time was written under a timing key as a duration. -/
theorem ofText?_of_timing? {key : String} {raw : List Char} {timingKey : TimingKey}
    {duration : Duration} (h : timing? key raw = some (timingKey, duration)) :
    TimingKey.ofName? key = some timingKey ∧ Duration.ofText? raw = some duration := by
  unfold timing? at h
  split at h
  · next found hfound =>
    split_ifs at h
    obtain ⟨read, hread, heq⟩ := Option.map_eq_some_iff.1 h
    obtain ⟨rfl, rfl⟩ := Prod.mk.inj heq
    exact ⟨hfound, hread⟩
  · cases h

/-- A parameter fails to be read exactly if it cannot be read, at a tempo that is kept. -/
theorem fails_readParameter_iff {key : String} {raw : List Char} (hbpm : bpm.isPositive = true)
    (hkept : bpm.IsKept) :
    Fails (readParameter .binary64 (.number bpm) (.int beatsPerBar) key raw) ↔
      ParameterStumbles beatsPerBar key raw := by
  unfold readParameter ParameterStumbles
  cases htiming : timing? key raw with
  | none =>
    dsimp only
    rw [fails_bind_of_total fun _ _ => not_fails_pure _, Value.fails_ofRaw_iff]
  | some timing =>
    obtain ⟨timingKey, duration⟩ := timing
    obtain ⟨-, hduration⟩ := ofText?_of_timing? htiming
    have hbare : timingKey.bareUnit = "s" ∨ timingKey.bareUnit = "beats" := by
      cases timingKey <;> simp [TimingKey.bareUnit]
    dsimp only
    rw [fails_bind_of_total fun _ _ => not_fails_pure _]
    exact Duration.fails_toBeats_iff hduration hbpm hkept hbare

namespace CueBody

/-- A token fails to be added exactly if it is a parameter that cannot be read; what is there before
it does not matter. -/
theorem fails_add_iff (details : Details) (token : List Char) (hbpm : bpm.isPositive = true)
    (hkept : bpm.IsKept) :
    Fails (details.add .binary64 (.number bpm) (.int beatsPerBar) token) ↔
      isParameter token = true ∧ ParameterStumbles beatsPerBar (keyOf token) (rawOf token) := by
  cases htoken : isParameter token with
  | false => simp [Details.add_of_argument htoken]
  | true =>
    rw [Details.add_of_parameter htoken, fails_bind_of_total fun _ _ => not_fails_ok _,
      fails_readParameter_iff hbpm hkept]
    simp

/-- A cue fails to be read exactly if one of its parameters cannot be read. -/
theorem fails_read_iff {body : List Char} (hbpm : bpm.isPositive = true) (hkept : bpm.IsKept) :
    Fails (read .binary64 (.number bpm) (.int beatsPerBar) body) ↔ CueStumbles beatsPerBar body := by
  unfold read
  dsimp only
  rw [fails_bind_of_total fun _ _ => not_fails_pure _]
  exact fails_foldlM_iff fun details token => fails_add_iff details token hbpm hkept

end CueBody

end CueSheet
