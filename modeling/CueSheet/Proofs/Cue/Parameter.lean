import CueSheet.Proofs.Cue.Written
import CueSheet.Proofs.Numeric.Literal

/-!
# Written parameters are read back

A value is read back as it is, except a real number next to a power of ten, which is read as a text
(`Value.reread`). A stored time is written as a number of beats, and read back as a real number with
these beats (`readParameter_beats`); next to a power of ten it is read as no time at all.
-/

namespace CueSheet

open Text (isDigit digitValues isBlank lower)

/-! ## Values under other keys -/

/-- A value can stand in a cue that is written: a finite quantity, or a text without quotes on one
line. -/
def Value.IsWritten : Value → Prop
  | .number x => x.IsPlain ∧ x.isFinite = true
  | .text s => '"' ∉ s.toList ∧ '\n' ∉ s.toList
  | .null | .list _ | .record _ => False

/-- What a written value is read as. -/
def Value.reread : Value → Value
  | .number (.real x) =>
    if 'e' ∈ x.write then .text (String.ofList x.write) else .number (.real x)
  | value => value

/-- Whether a value is a text that cannot be written: a whole number of too many digits. -/
def Value.IsStuck : Value → Prop
  | .text s => IsOverlong s.toList
  | .null | .number _ | .list _ | .record _ => False

namespace Render

variable {v : Value} {w : String}

/-- A value of a cue can be written unless it is stuck. -/
theorem fails_value_iff (hv : v.IsWritten) : Fails (value v) ↔ v.IsStuck := by
  cases v with
  | null | list | record => exact hv.elim
  | text s => exact fails_word_iff hv.2
  | number x =>
    have hnot : ¬Fails (value (.number x)) := by
      cases x with
      | bool => exact not_fails_pure _
      | int | real => exact hv.1.writable.not_fails_shown
    exact ⟨fun h => absurd h hnot, False.elim⟩

/-- What is shown of a quantity is what is written of it. -/
theorem shown_eq_ok_iff {x : Number} {w : String} :
    x.shown = .ok w ↔ x.write = .ok w.toList := by
  unfold Number.shown
  cases x.write with
  | error fault => simp
  | ok text =>
    rw [ok_bind, pure_eq_ok_iff, Except.ok.injEq]
    constructor
    · rintro rfl
      exact String.toList_ofList.symm
    · rintro rfl
      exact String.ofList_toList

/-- A written value is read back, but for powers of ten. -/
theorem ofRaw_value (hv : v.IsWritten) (h : value v = .ok w) :
    Value.ofRaw .binary64 w.toList = .ok v.reread := by
  cases v with
  | null | list | record => exact hv.elim
  | text s => exact ofRaw_word hv.1 h
  | number x =>
    cases x with
    | bool b =>
      obtain rfl := Except.ok.inj h
      cases b <;> decide
    | int n =>
      have hwrite := shown_eq_ok_iff.1 h
      have hquote : '"' ∉ w.toList := fun hmem =>
        absurd (Number.isNumeralChar_of_mem_write hwrite rfl hmem) (by decide)
      exact Value.ofRaw_of_readNumber? hquote (Value.readNumber?_writeInt hwrite)
    | real x =>
      have hwrite := shown_eq_ok_iff.1 h
      have hread := Value.ofRaw_write hv.1 rfl hv.2 hwrite
      obtain hw := Except.ok.inj hwrite
      rw [hread, Value.reread, hw]

/-- A written value has its blanks in quotes and its quotes in pairs. -/
theorem readOver_value (hv : v.IsWritten) (h : value v = .ok w) :
    Token.readOver false w.toList = some false := by
  cases v with
  | null | list | record => exact hv.elim
  | text s => exact (isWhole_word hv.1 h).closed
  | number x =>
    have hnumeral (hchar : ∀ c ∈ w.toList, isNumeralChar c = true) :
        Token.readOver false w.toList = some false := by
      refine Token.readOver_bare _ fun c hc => ?_
      exact of_isNumeralChar (P := fun c => c ≠ '"' ∧ isBlank c = false) (by decide +kernel)
        (hchar c hc)
    cases x with
    | bool b =>
      obtain rfl := Except.ok.inj h
      cases b <;> decide
    | int n =>
      exact hnumeral fun c hc => Number.isNumeralChar_of_mem_write (shown_eq_ok_iff.1 h) rfl hc
    | real x =>
      exact hnumeral fun c hc => Number.isNumeralChar_of_mem_write (shown_eq_ok_iff.1 h) rfl hc

end Render

/-! ## Stored times -/

namespace Number

variable {x : Number} {q : ℚ}

/-- A number without the fraction of a whole real number is a whole number or a finite real one. -/
theorem normalize_cases (hnumeric : x.isNumeric = true) (hx : x.toRat? = some q) :
    (∃ n : ℤ, x.normalize = int n ∧ q = n) ∨ x.normalize = real (.finite q) ∧ x = real (.finite q) := by
  cases x with
  | bool => cases hnumeric
  | int n => exact .inl ⟨n, rfl, (Option.some.inj hx).symm⟩
  | real x =>
    obtain ⟨n, hn, hwhole⟩ | hsame := normalize_real x
    · exact .inl ⟨n, hn, Option.some.inj (hx.symm.trans hwhole)⟩
    · cases x with
      | nan | infinite => cases hx
      | negZero => cases hsame
      | finite r =>
        obtain rfl := Option.some.inj hx
        exact .inr ⟨hsame, rfl⟩

/-- A whole number of at least zero is scanned as a literal with that quantity, up to what follows it.
-/
theorem exists_literal_int {n : ℤ} {text rest : List Char} (hn : 0 ≤ n)
    (h : writeInt n = .ok text) (hrest : ∀ c ∈ rest.head?, isDigit c = false ∧ c ≠ '.') :
    ∃ literal, Literal.scan? (text ++ rest) = some (literal, rest) ∧
      literal.real .binary64 = Rounding.binary64 n ∧ literal.number .binary64 = .ok (int n) := by
  obtain ⟨hlength, htext⟩ := writeInt_eq_ok_iff.1 h
  rw [if_neg (not_lt.2 hn)] at htext
  subst htext
  have hdigits : ∀ c ∈ natDigits n.natAbs, isDigit c = true :=
    isDigit_of_ascii fun c hc => isDigit_of_mem_natDigits hc
  have hspelled := ofDigits_natDigits n.natAbs
  have hvalue : ((n.natAbs : ℕ) : ℤ) = n := by omega
  refine ⟨_, Literal.scan?_whole (natDigits_ne_nil _) hdigits hrest, ?_, ?_⟩
  · rw [Literal.real, Extended.ofDigits, List.append_nil, hspelled, List.length_nil, tenTo_zero,
      Rat.mkRat_one, hvalue]
  · have hread : readDigits (digitValues (natDigits n.natAbs)) = .ok n.natAbs := by
      rw [readDigits_eq_ok_iff, Text.length_digitValues hdigits]
      exact ⟨hlength, hspelled⟩
    rw [Literal.number, if_pos List.isEmpty_nil, hread, ok_bind, hvalue]
    rfl

/-- A binary64 number of at least zero that is written without a power of ten is scanned as a literal
with that quantity, up to what follows it. -/
theorem exists_literal_real {rest : List Char} (hq : 0 ≤ q)
    (hbinary : (Extended.finite q).IsBinary64) (hletter : 'e' ∉ (Extended.finite q).write)
    (hrest : ∀ c ∈ rest.head?, isDigit c = false) :
    ∃ literal, Literal.scan? ((Extended.finite q).write ++ rest) = some (literal, rest) ∧
      literal.real .binary64 = Rounding.binary64 q ∧
      literal.number .binary64 = .ok (real (.finite q)) := by
  obtain ⟨whole, fraction, htext, hwhole, hfraction, hascii, hspelled⟩ :=
    Extended.spellsReal_write hq hbinary hletter
  have hdigits := isDigit_of_ascii hascii
  have hvalues : digitValues whole ++ digitValues fraction = digitValues (whole ++ fraction) :=
    List.filterMap_append.symm
  have hlength := Text.length_digitValues (List.forall_mem_append.1 hdigits).2
  have hreal : Literal.real .binary64 ⟨digitValues whole, digitValues fraction⟩ =
      Extended.finite q := by
    rw [Literal.real, hvalues, hlength, hspelled]
  refine ⟨⟨digitValues whole, digitValues fraction⟩, ?_, ?_, ?_⟩
  · rw [htext, List.append_assoc, List.cons_append]
    exact Literal.scan?_point hwhole hfraction hdigits hrest
  · rw [hreal, binary64_of_isBinary64 hq hbinary]
  · rw [Literal.number, if_neg, hreal]
    · rfl
    · simpa using digitValues_ne_nil hfraction (List.forall_mem_append.1 hdigits).2

/-- A number of at least zero that is written without a power of ten is scanned as a literal with
that quantity, up to what follows it. -/
theorem exists_literal {text rest : List Char} (hnumeric : x.isNumeric = true)
    (hplain : x.IsPlain) (hx : x.toRat? = some q) (hq : 0 ≤ q)
    (h : x.normalize.write = .ok text) (hletter : 'e' ∉ text)
    (hrest : ∀ c ∈ rest.head?, isDigit c = false ∧ c ≠ '.') :
    ∃ literal, Literal.scan? (text ++ rest) = some (literal, rest) ∧
      literal.real .binary64 = Rounding.binary64 q ∧
      literal.number .binary64 = .ok x.normalize := by
  rcases normalize_cases hnumeric hx with ⟨n, hn, rfl⟩ | ⟨hreal, rfl⟩
  · rw [hn] at h ⊢
    exact exists_literal_int (by exact_mod_cast hq) h hrest
  · rw [hreal] at h ⊢
    obtain rfl := Except.ok.inj h
    exact exists_literal_real hq (hplain.binary64 _ rfl) hletter fun c hc => (hrest c hc).1

/-- A number that is written next to a power of ten is written with a digit. -/
theorem exists_digit_of_power {text : List Char} (hnumeric : x.isNumeric = true)
    (hx : x.toRat? = some q) (h : x.normalize.write = .ok text) (hpower : 'e' ∈ text) :
    ∃ c ∈ text, c.isDigit = true := by
  rcases normalize_cases hnumeric hx with ⟨n, hn, -⟩ | ⟨hreal, -⟩
  · -- A whole number has no letter.
    rw [hn] at h
    obtain ⟨-, rfl⟩ := writeInt_eq_ok_iff.1 h
    have hnone : 'e' ∉ natDigits n.natAbs := fun hmem =>
      absurd (isDigit_of_mem_natDigits hmem) (by decide)
    split_ifs at hpower
    · exact absurd ((List.mem_cons.1 hpower).resolve_left (by decide)) hnone
    · exact absurd hpower hnone
  · rw [hreal] at h
    obtain rfl := Except.ok.inj h
    exact Extended.exists_digit_mem_write rfl

end Number

/-- The timing key under which a stored time is written stores it where it was. -/
theorem stored_of_writtenAs {key written : String}
    (h : (key, written) ∈ TimingKey.writtenAs) :
    ∃ timingKey, TimingKey.ofName? written = some timingKey ∧ timingKey.stored = key := by
  simp only [TimingKey.writtenAs, List.mem_cons, List.not_mem_nil, or_false, Prod.mk.injEq] at h
  rcases h with ⟨rfl, rfl⟩ | ⟨rfl, rfl⟩ | ⟨rfl, rfl⟩ | ⟨rfl, rfl⟩
  · exact ⟨.duration, by decide, rfl⟩
  · exact ⟨.start, by decide, rfl⟩
  · exact ⟨.fadeIn, by decide, rfl⟩
  · exact ⟨.fadeOut, by decide, rfl⟩

/-- No unit has more than five letters. -/
theorem TimeUnit.length_le_of_isSpelling {text : List Char} (h : isSpelling text = true) :
    text.length ≤ 5 := by
  have hwords : ∀ word ∈ words, word.toList.length ≤ 5 := by decide
  have := hwords _ (mem_words_iff.1 h)
  rwa [String.toList_ofList, List.length_map] at this

namespace Duration

/-- A number of beats is a duration if its literal ends where the unit starts. -/
theorem ofText?_beats {text : List Char} {literal : Literal}
    (hstripped : Text.IsStripped (text ++ "beats".toList))
    (h : Literal.scan? (text ++ "beats".toList) = some (literal, "beats".toList)) :
    ofText? (text ++ "beats".toList) = some ⟨literal, some "beats"⟩ := by
  unfold ofText?
  rw [hstripped.strip_eq, h]
  rfl

/-- A number of beats is no duration if a letter stands in front of the unit. -/
theorem ofText?_of_letter {text : List Char}
    (hstripped : Text.IsStripped (text ++ "beats".toList)) (hletter : 'e' ∈ text) :
    ofText? (text ++ "beats".toList) = none := by
  unfold ofText?
  rw [hstripped.strip_eq]
  cases hscan : Literal.scan? (text ++ "beats".toList) with
  | none => rfl
  | some scanned =>
    obtain ⟨literal, rest⟩ := scanned
    obtain ⟨read, hread, hspelled⟩ := Literal.exists_isSpelled_of_scan? hscan
    -- The letter is not read over, so the rest is the unit with more in front of it.
    have hnot : 'e' ∉ read := fun hmem => by
      rcases hspelled.isDigit_or _ hmem with h | h
      · exact absurd h (by decide)
      · exact absurd h (by decide)
    have hlonger : 5 < rest.length := by
      rcases List.append_eq_append_iff.1 hread with ⟨between, hbetween, -⟩ | ⟨between, htext, hrest⟩
      · exact absurd (hbetween ▸ List.mem_append_left _ hletter) hnot
      · have hne : between ≠ [] := by
          rintro rfl
          rw [List.append_nil] at htext
          exact hnot (htext ▸ hletter)
        have := List.length_pos_iff.2 hne
        rw [hrest, List.length_append]
        simp
        omega
    cases rest with
    | nil => cases hlonger
    | cons c rest =>
      dsimp only
      rw [if_neg]
      intro hspelling
      exact absurd (TimeUnit.length_le_of_isSpelling hspelling) (by omega)

end Duration

/-- A written number with a unit behind it has characters of written numbers only. -/
theorem isNumeralChar_of_beats {x : Number} {text : List Char} (hnumeric : x.isNumeric = true)
    (h : x.write = .ok text) : ∀ c ∈ text ++ "beats".toList, isNumeralChar c = true := by
  intro c hc
  rcases List.mem_append.1 hc with hc | hc
  · exact Number.isNumeralChar_of_mem_write h hnumeric hc
  · have hunit : ∀ c ∈ "beats".toList, isNumeralChar c = true := List.all_eq_true.1 (by decide)
    exact hunit c hc

/-- Characters of written numbers leave nothing to strip. -/
theorem isStripped_of_numeral {text : List Char} (h : ∀ c ∈ text, isNumeralChar c = true) :
    Text.IsStripped text :=
  Text.isStripped_of_bare fun c hc =>
    of_isNumeralChar (P := fun c => isBlank c = false) (by decide +kernel) (h c hc)

/-- A number of beats in beats is its own quantity as a real number, at any tempo. -/
theorem toBeats_of_beats {literal : Literal} {spelling : String} {bpm : Number} {beatsPerBar : Value}
    (hfound : TimeUnit.ofSpelling? (Text.lowered spelling) = some .beats)
    (hbpm : bpm.isPositive = true) :
    Duration.toBeats .binary64 ⟨literal, some spelling⟩ (.number bpm) beatsPerBar =
      .ok (.real (literal.real .binary64)) := by
  unfold Duration.toBeats
  rw [TimeUnit.toBeats_of_found hfound, Duration.requireTempo_of_isPositive hbpm, ok_bind]
  rfl

/-- A stored time that is written in beats is read back as a real number, unless it is written next
to a power of ten: then it is read as a text under the key that it is written under. -/
theorem readParameter_beats {key written : String} (hkey : (key, written) ∈ TimingKey.writtenAs)
    {x bpm : Number} {q : ℚ} {text : List Char} {beatsPerBar : Value}
    (hnumeric : x.isNumeric = true) (hplain : x.IsPlain) (hx : x.toRat? = some q) (hq : 0 ≤ q)
    (h : x.normalize.write = .ok text) (hbpm : bpm.isPositive = true) :
    readParameter .binary64 (.number bpm) beatsPerBar written (text ++ "beats".toList) =
      .ok (if 'e' ∈ text then (written, .text (String.ofList (text ++ "beats".toList)))
        else (key, .number (.real (Rounding.binary64 q)))) := by
  obtain ⟨timingKey, hname, hstored⟩ := stored_of_writtenAs hkey
  have hchars := isNumeralChar_of_beats (Number.isNumeric_normalize hnumeric) h
  have hstripped := isStripped_of_numeral hchars
  have hquote : '"' ∉ text ++ "beats".toList := fun hmem => absurd (hchars _ hmem) (by decide)
  have hletter : 'e' ∈ text ++ "beats".toList := by simp
  have htiming : timing? written (text ++ "beats".toList) =
      (Duration.ofText? (text ++ "beats".toList)).map fun d => (timingKey, d) := by
    unfold timing?
    rw [hname]
    dsimp only
    rw [if_neg (by simpa using hquote)]
  unfold readParameter
  rw [htiming]
  split_ifs with hpower
  · rw [Duration.ofText?_of_letter hstripped hpower, Option.map_none]
    dsimp only
    obtain ⟨c, hc, hdigit⟩ := Number.exists_digit_of_power hnumeric hx h hpower
    rw [Value.ofRaw_of_digit hquote
      (Value.readNumber?_eq_none hletter (by decide) (by decide))
      (fun c hc => lt_of_isNumeralChar (hchars c hc)) (List.mem_append_left _ hc) hdigit]
    rfl
  · have hletter : ∀ c ∈ "beats".toList.head?, isDigit c = false ∧ c ≠ '.' := by
      simp
      decide
    obtain ⟨literal, hscan, hreal, -⟩ :=
      Number.exists_literal hnumeric hplain hx hq h hpower hletter
    rw [Duration.ofText?_beats hstripped hscan, Option.map_some]
    dsimp only [Option.getD_some]
    rw [toBeats_of_beats (by decide) hbpm, hreal, ok_bind, hstored]
    rfl

end CueSheet
