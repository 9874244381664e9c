import CueSheet.Proofs.Cue.Plain
import CueSheet.Proofs.Cue.Token
import CueSheet.Proofs.Numeric.Written
import CueSheet.Proofs.Text.Lower
import CueSheet.Render

/-!
# Written values are read back

A number that is written without a power of ten is read back as it is (`Value.ofRaw_write`), and next
to a power of ten it is read as a text. A text is read back as it is, whether it is quoted or not
(`Render.ofRaw_word`), unless it looks like a whole number of too many digits: then it cannot be
written (`Render.fails_word_iff`). A time in beats is read back as a duration
(`readParameter_beats`), with the same exception for powers of ten.
-/

namespace CueSheet

open Text (isDigit digitValues isBlank lower)

/-! ## Numbers -/

namespace Value

variable {ρ : Rounding} {text unsigned : List Char} {negative : Bool}

/-- A text that starts with a digit has no sign to take. -/
theorem takeSign_of_isDigit (h : ∀ c ∈ text.head?, c.isDigit = true) :
    takeSign text = (false, text) := by
  unfold takeSign
  split
  · exact absurd (h '-' rfl) (by decide)
  · exact absurd (h '+' rfl) (by decide)
  · rfl

/-- Digits behind a sign are read as a whole number. -/
theorem readNumber?_of_wholeDigits? {digits : List ℕ} {n : ℕ}
    (hfeed : dropFinalFeed text = text) (hsign : takeSign text = (negative, unsigned))
    (hwhole : wholeDigits? unsigned = some digits) (hread : readDigits digits = .ok n) :
    readNumber? ρ text = some (.ok (.int (if negative then -(n : ℤ) else n))) := by
  unfold readNumber?
  rw [hfeed, hsign]
  dsimp only
  rw [hwhole]
  dsimp only
  rw [hread]
  rfl

/-- Digits with a point behind a sign are read as a real number. -/
theorem readNumber?_of_pointDigits? {whole fraction : List ℕ} {x : Extended}
    (hfeed : dropFinalFeed text = text) (hsign : takeSign text = (negative, unsigned))
    (hwhole : wholeDigits? unsigned = none)
    (hpoint : pointDigits? unsigned = some (whole, fraction))
    (hvalue : Extended.ofDigits ρ (whole ++ fraction) fraction.length = x) :
    readNumber? ρ text = some (.ok (.real (if negative then x.neg else x))) := by
  unfold readNumber?
  rw [hfeed, hsign]
  dsimp only
  rw [hwhole]
  dsimp only
  rw [hpoint, Option.map_some, hvalue]
  rfl

/-- Digits, a point and digits are no whole number, and are split at the point. -/
theorem pointDigits?_point {whole fraction : List Char} (hwhole : whole ≠ [])
    (hdigits : ∀ c ∈ whole ++ fraction, isDigit c = true) :
    wholeDigits? (whole ++ '.' :: fraction) = none ∧
      pointDigits? (whole ++ '.' :: fraction) = some (digitValues whole, digitValues fraction) := by
  obtain ⟨hdigits₁, hdigits₂⟩ := List.forall_mem_append.1 hdigits
  have hdot : isDigit '.' = false := by decide
  constructor
  · rw [← Option.not_isSome_iff_eq_none, Option.isSome_iff_exists]
    rintro ⟨values, hvalues⟩
    have := (wholeDigits?_eq_some_iff.1 hvalues).2.1 '.' (by simp)
    rw [hdot] at this
    cases this
  · have hhead : ∀ c ∈ ('.' :: fraction).head?, isDigit c = false := by simpa using hdot
    obtain ⟨htake, hdrop⟩ := takeWhile_isDigit_append hdigits₁ hhead
    have hall : fraction.all isDigit = true := List.all_eq_true.2 hdigits₂
    unfold pointDigits?
    dsimp only
    rw [htake, hdrop]
    simp [hall, hwhole]

/-- A real number in digits is read back, and with a sign in front as its opposite. -/
theorem readNumber?_of_spellsReal {x : Extended} (h : SpellsReal x text) :
    readNumber? .binary64 text = some (.ok (.real x)) ∧
      readNumber? .binary64 ('-' :: text) = some (.ok (.real x.neg)) := by
  obtain ⟨whole, fraction, rfl, hne, hfraction, hascii, hvalue⟩ := h
  have hdigits := isDigit_of_ascii hascii
  have hdigits₂ := (List.forall_mem_append.1 hdigits).2
  have hfeed (before : List Char) : dropFinalFeed (before ++ (whole ++ '.' :: fraction)) =
      before ++ (whole ++ '.' :: fraction) := by
    have hnone : ([] : List Char) ∈ [[], ['\n']] := List.mem_cons_self
    have : dropFinalFeed (before ++ whole ++ ['.'] ++ (fraction ++ [])) = _ :=
      dropFinalFeed_append hfraction hdigits₂ hnone
    simpa using this
  have hsign : takeSign (whole ++ '.' :: fraction) = (false, whole ++ '.' :: fraction) := by
    obtain ⟨c, rest, rfl⟩ := List.exists_cons_of_ne_nil hne
    exact takeSign_of_isDigit (by simpa using hascii c (by simp))
  obtain ⟨hwhole, hpoint⟩ := pointDigits?_point hne hdigits
  have hspelled : Extended.ofDigits .binary64 (digitValues whole ++ digitValues fraction)
      (digitValues fraction).length = x := by
    rw [digitValues, digitValues, ← List.filterMap_append, ← digitValues, ← digitValues,
      Text.length_digitValues hdigits₂, hvalue]
  exact ⟨readNumber?_of_pointDigits? (hfeed []) hsign hwhole hpoint hspelled,
    readNumber?_of_pointDigits? (hfeed ['-']) rfl hwhole hpoint hspelled⟩

/-- A whole number in writing is read back. -/
theorem readNumber?_writeInt {n : ℤ} (h : writeInt n = .ok text) :
    readNumber? ρ text = some (.ok (.int n)) := by
  obtain ⟨hlength, rfl⟩ := writeInt_eq_ok_iff.1 h
  have hascii : ∀ c ∈ natDigits n.natAbs, c.isDigit = true := fun c hc =>
    isDigit_of_mem_natDigits hc
  have hne := natDigits_ne_nil n.natAbs
  have hspelled := ofDigits_natDigits n.natAbs
  generalize natDigits n.natAbs = digits at *
  have hdigits := isDigit_of_ascii hascii
  have hwhole : wholeDigits? digits = some (digitValues digits) :=
    wholeDigits?_eq_some_iff.2 ⟨hne, hdigits, rfl⟩
  have hread : readDigits (digitValues digits) = .ok n.natAbs := by
    rw [readDigits_eq_ok_iff, Text.length_digitValues hdigits]
    exact ⟨hlength, hspelled⟩
  have hfeed (before : List Char) : dropFinalFeed (before ++ digits) = before ++ digits := by
    have hnone : ([] : List Char) ∈ [[], ['\n']] := List.mem_cons_self
    have : dropFinalFeed (before ++ (digits ++ [])) = _ := dropFinalFeed_append hne hdigits hnone
    rwa [List.append_nil] at this
  -- A sign is written below zero only, and read as such.
  split_ifs with hn
  · have hvalue : (if true = true then -(n.natAbs : ℤ) else n.natAbs) = n := by
      rw [if_pos rfl]
      omega
    have := readNumber?_of_wholeDigits? (ρ := ρ) (hfeed ['-']) rfl hwhole hread
    rwa [hvalue] at this
  · have hsign : takeSign digits = (false, digits) := by
      obtain ⟨c, rest, rfl⟩ := List.exists_cons_of_ne_nil hne
      exact takeSign_of_isDigit (by simpa using hascii c (by simp))
    have hvalue : (if false = true then -(n.natAbs : ℤ) else n.natAbs) = n := by
      rw [if_neg Bool.false_ne_true]
      omega
    have := readNumber?_of_wholeDigits? (ρ := ρ) (hfeed []) hsign hwhole hread
    rwa [hvalue] at this

/-- Digits with a point among them are digits and points. -/
theorem mem_of_pointDigits? {pair : List ℕ × List ℕ} (h : pointDigits? text = some pair) {c : Char}
    (hc : c ∈ text) : isDigit c = true ∨ c = '.' := by
  unfold pointDigits? at h
  dsimp only at h
  split at h
  · next fraction hfraction =>
    split_ifs at h with hall
    rw [← List.takeWhile_append_dropWhile (p := isDigit) (l := text), hfraction, List.mem_append,
      List.mem_cons] at hc
    rcases hc with hc | rfl | hc
    · exact .inl (List.mem_takeWhile_imp hc)
    · exact .inr rfl
    · exact .inl (List.all_eq_true.1 (Bool.and_eq_true_iff.1 hall).1 c hc)
  · cases h

/-- What looks like a number has digits, signs, points and line feeds only. -/
theorem mem_of_readNumber? {read : Except Fault Number} (h : readNumber? ρ text = some read)
    {c : Char} (hc : c ∈ text) : isDigit c = true ∨ c ∈ ['+', '-', '.', '\n'] := by
  -- The text is a sign, digits that may have a point among them, and a line feed, of which the first
  -- and the last may be missing.
  obtain ⟨feed, hfeed, htext⟩ := exists_feed text
  obtain ⟨sign, hsign, hunsigned⟩ := exists_sign (dropFinalFeed text)
  have hinner : c ∈ (takeSign (dropFinalFeed text)).2 → isDigit c = true ∨ c = '.' := by
    intro hmem
    unfold readNumber? at h
    dsimp only at h
    split at h
    · next digits hdigits => exact .inl ((wholeDigits?_eq_some_iff.1 hdigits).2.1 c hmem)
    · obtain ⟨pair, hpair, -⟩ := Option.map_eq_some_iff.1 h
      exact mem_of_pointDigits? hpair hmem
  simp only [List.mem_cons, List.not_mem_nil, or_false] at hsign hfeed
  rw [htext, hunsigned, List.mem_append, List.mem_append] at hc
  rcases hc with (hc | hc) | hc
  · rcases hsign with rfl | rfl | rfl
    · cases hc
    · exact .inr (by rw [List.mem_singleton.1 hc]; decide)
    · exact .inr (by rw [List.mem_singleton.1 hc]; decide)
  · exact (hinner hc).imp_right fun h => by simp [h]
  · rcases hfeed with rfl | rfl
    · cases hc
    · exact .inr (by rw [List.mem_singleton.1 hc]; decide)

/-- A text with a letter or a quote in it does not look like a number. -/
theorem readNumber?_eq_none {c : Char} (hc : c ∈ text) (hdigit : isDigit c = false)
    (hother : c ∉ ['+', '-', '.', '\n']) : readNumber? ρ text = none := by
  rw [← Option.not_isSome_iff_eq_none, Option.isSome_iff_exists]
  rintro ⟨read, hread⟩
  rcases mem_of_readNumber? hread hc with h | h
  · rw [hdigit] at h
    cases h
  · exact hother h

/-- A text without quotes that looks like a number is read as that number. -/
theorem ofRaw_of_readNumber? {x : Number} (hquote : '"' ∉ text)
    (h : readNumber? ρ text = some (.ok x)) : ofRaw ρ text = .ok (.number x) := by
  unfold ofRaw
  rw [if_neg (by simpa using hquote), h]
  rfl

/-- A text with a digit in it is no truth value. -/
theorem ofRaw_of_digit {c : Char} (hquote : '"' ∉ text) (hread : readNumber? ρ text = none)
    (hascii : ∀ c ∈ text, c.toNat < 128) (hc : c ∈ text) (hdigit : c.isDigit = true) :
    ofRaw ρ text = .ok (.text (String.ofList text)) := by
  -- The digit stays in lower case, and neither word for a truth value has one.
  have hsame : c.toLower = c := by
    simp only [Char.isDigit, Bool.and_eq_true, decide_eq_true_eq] at hdigit
    unfold Char.toLower
    rw [dif_neg]
    rintro ⟨hle, -⟩
    exact absurd (UInt32.le_trans hle hdigit.2) (by decide)
  have hmem : c ∈ lower text := by
    rw [Text.lower_of_ascii hascii, ← hsame]
    exact List.mem_map_of_mem hc
  have hnot (word : List Char) (hword : word.all (!·.isDigit) = true) : lower text ≠ word := by
    rintro rfl
    have hdigitless := List.all_eq_true.1 hword c hmem
    rw [hdigit] at hdigitless
    cases hdigitless
  unfold ofRaw
  rw [if_neg (by simpa using hquote), hread]
  dsimp only
  rw [if_neg (hnot _ (by decide)), if_neg (hnot _ (by decide))]
  rfl

/-- Below zero the digits are those of the opposite number. -/
theorem write_of_neg {q : ℚ} (hq : q < 0) :
    (Extended.finite q).write = '-' :: (Extended.finite (-q)).write := by
  have hden : (-q).den = q.den := Rat.den_neg_eq_den q
  have hnum : (-q).num.natAbs = q.num.natAbs := by rw [Rat.num_neg_eq_neg_num, Int.natAbs_neg]
  simp only [Extended.write, hq.ne, hq, (neg_pos.2 hq).ne', not_lt.2 (neg_pos.2 hq).le, if_true,
    if_false, hden, hnum]

/-- A real number that is written without a power of ten is read back. -/
theorem readNumber?_writeReal {x : Extended} (hbinary : x.IsBinary64) (hfinite : x.isFinite = true)
    (hletter : 'e' ∉ x.write) : readNumber? .binary64 x.write = some (.ok (.real x)) := by
  cases x with
  | nan | infinite => cases hfinite
  | negZero => rfl
  | finite q =>
    rcases le_or_gt 0 q with hq | hq
    · exact (readNumber?_of_spellsReal (Extended.spellsReal_write hq hbinary hletter)).1
    · rw [write_of_neg hq] at hletter ⊢
      have hbinary' : (Extended.finite (-q)).IsBinary64 := by rwa [Extended.IsBinary64, abs_neg]
      have hspells := Extended.spellsReal_write (neg_pos.2 hq).le hbinary'
        fun hmem => hletter (List.mem_cons_of_mem _ hmem)
      rw [(readNumber?_of_spellsReal hspells).2, Extended.neg, if_neg (neg_pos.2 hq).ne', neg_neg]

/-- A written number is read back, unless a power of ten makes it a text. -/
theorem ofRaw_write {x : Number} (hx : x.IsPlain) (hnumeric : x.isNumeric = true)
    (hfinite : x.isFinite = true) (h : x.write = .ok text) :
    ofRaw .binary64 text =
      .ok (if 'e' ∈ text then .text (String.ofList text) else .number x) := by
  have hchar := fun c hc => Number.isNumeralChar_of_mem_write h hnumeric (c := c) hc
  have hquote : '"' ∉ text := fun hmem => absurd (hchar _ hmem) (by decide)
  cases x with
  | bool => cases hnumeric
  | int n =>
    have hletter : 'e' ∉ text := by
      intro hmem
      have := readNumber?_writeInt (ρ := .binary64) h
      rw [readNumber?_eq_none hmem (by decide) (by decide)] at this
      cases this
    rw [if_neg hletter]
    exact ofRaw_of_readNumber? hquote (readNumber?_writeInt h)
  | real x =>
    obtain rfl := Except.ok.inj h
    split_ifs with hletter
    · obtain ⟨c, hc, hdigit⟩ := Extended.exists_digit_mem_write hfinite
      exact ofRaw_of_digit hquote (readNumber?_eq_none hletter (by decide) (by decide))
        (fun c hc => lt_of_isNumeralChar (hchar c hc)) hc hdigit
    · exact ofRaw_of_readNumber? hquote
        (readNumber?_writeReal (hx.binary64 x rfl) hfinite hletter)

end Value

/-! ## Texts -/

/-- A text without quotes that is read as a text is read as itself. -/
theorem Value.eq_of_ofRaw_eq_text {ρ : Rounding} {raw : List Char} {t : String}
    (hquote : '"' ∉ raw) (h : ofRaw ρ raw = .ok (.text t)) : t = String.ofList raw := by
  unfold ofRaw at h
  rw [if_neg (by simpa using hquote)] at h
  split at h
  · obtain ⟨x, -, h⟩ := bind_eq_ok.1 h
    cases h
  · split_ifs at h
    · cases h
    · cases h
    · exact (Value.text.inj (Except.ok.inj h)).symm

/-- A whole number of too many digits is not empty, and has neither blanks nor an equals sign if no
line feed follows it. -/
theorem IsOverlong.isBare {text : List Char} (h : IsOverlong text) (hfeed : '\n' ∉ text) :
    text ≠ [] ∧ ∀ c ∈ text, isBlank c = false ∧ c ≠ '=' := by
  obtain ⟨sign, digits, feed, rfl, hsign, hdigits, hlength, hfeeds⟩ := h
  have hnil : feed = [] := by
    simp only [List.mem_cons, List.not_mem_nil, or_false] at hfeeds
    rcases hfeeds with rfl | rfl
    · rfl
    · simp at hfeed
  subst hnil
  refine ⟨?_, fun c hc => ?_⟩
  · rintro hempty
    simp only [List.append_eq_nil_iff] at hempty
    rw [hempty.2.1] at hlength
    cases hlength
  · rw [List.append_nil, List.mem_append] at hc
    rcases hc with hc | hc
    · simp only [List.mem_cons, List.not_mem_nil, or_false] at hsign
      rcases hsign with rfl | rfl | rfl
      · cases hc
      · rw [List.mem_singleton.1 hc]
        exact ⟨by decide, by decide⟩
      · rw [List.mem_singleton.1 hc]
        exact ⟨by decide, by decide⟩
    · refine ⟨Text.not_isBlank_of_isDigit (hdigits c hc), ?_⟩
      rintro rfl
      exact absurd (hdigits '=' hc) (by decide)

namespace Render

variable {s w : String}

/-- A text is bare if it is not empty and has neither blanks nor an equals sign. -/
def IsBare (text : List Char) : Prop := text ≠ [] ∧ ∀ c ∈ text, isBlank c = false ∧ c ≠ '='

/-- Whether a bare text stands alone is told by what it is read as; other texts do not. -/
theorem standsAlone_eq (s : String) :
    (¬IsBare s.toList ∧ standsAlone s = .ok false) ∨
      IsBare s.toList ∧ standsAlone s = (Value.ofRaw .binary64 s.toList).map fun value =>
        match value with
        | .text _ => true
        | .null | .number _ | .list _ | .record _ => false := by
  unfold standsAlone
  dsimp only
  by_cases hearly : (s.toList.isEmpty || s.toList.any isBlank || s.toList.contains '=') = true
  · left
    rw [if_pos hearly]
    refine ⟨?_, rfl⟩
    rintro ⟨hne, hall⟩
    simp only [Bool.or_eq_true, List.isEmpty_iff, List.any_eq_true, List.contains_eq_mem,
      decide_eq_true_eq] at hearly
    rcases hearly with (hempty | ⟨c, hc, hblank⟩) | hequals
    · exact hne hempty
    · rw [(hall c hc).1] at hblank
      cases hblank
    · exact (hall _ hequals).2 rfl
  · right
    rw [if_neg hearly]
    refine ⟨?_, ?_⟩
    · simp only [Bool.or_eq_true, not_or, List.isEmpty_iff, List.any_eq_true, List.contains_eq_mem,
        decide_eq_true_eq, not_exists, not_and, Bool.not_eq_true] at hearly
      exact ⟨hearly.1.1, fun c hc => ⟨hearly.1.2 c hc, fun heq => hearly.2 (heq ▸ hc)⟩⟩
    · cases Value.ofRaw .binary64 s.toList with
      | error => rfl
      | ok value => cases value <;> rfl

/-- A text on one line can be written unless it is a whole number of too many digits. -/
theorem fails_word_iff (hfeed : '\n' ∉ s.toList) : Fails (word s) ↔ IsOverlong s.toList := by
  have hstands : Fails (word s) ↔ Fails (standsAlone s) := by
    unfold word
    refine fails_bind_of_total fun b _ => ?_
    cases b <;> exact not_fails_pure _
  rw [hstands]
  rcases standsAlone_eq s with ⟨hbare, hstands⟩ | ⟨hbare, hstands⟩
  · rw [hstands]
    simp only [not_fails_ok, false_iff]
    exact fun h => hbare (h.isBare hfeed)
  · rw [hstands, ← Value.fails_ofRaw_iff (ρ := .binary64)]
    cases Value.ofRaw .binary64 s.toList <;> simp [Except.map]

/-- A text that is written without quotes is bare and is read as itself, and any other text is
written in quotes. -/
theorem word_cases (hquote : '"' ∉ s.toList) (h : word s = .ok w) :
    (w = s ∧ IsBare s.toList ∧ Value.ofRaw .binary64 s.toList = .ok (.text s)) ∨
      w = inQuotes s := by
  unfold word at h
  obtain ⟨b, hb, h⟩ := bind_eq_ok.1 h
  cases b with
  | false => exact .inr (Except.ok.inj h).symm
  | true =>
    left
    rcases standsAlone_eq s with ⟨-, hstands⟩ | ⟨hbare, hstands⟩
    · rw [hstands] at hb
      cases hb
    · rw [hstands] at hb
      obtain ⟨value, hvalue, htrue⟩ := map_eq_ok.1 hb
      refine ⟨(Except.ok.inj h).symm, hbare, ?_⟩
      cases value with
      | text t =>
        have := Value.eq_of_ofRaw_eq_text hquote hvalue
        rw [hvalue, this, String.ofList_toList]
      | null | number | list | record => cases htrue

/-- A text in quotes is a quote, the text and a quote. -/
theorem toList_inQuotes (s : String) : (inQuotes s).toList = '"' :: (s.toList ++ ['"']) := by
  rw [inQuotes, String.toList_append, String.toList_append]
  rfl

/-- A written text is a whole token. -/
theorem isWhole_word (hquote : '"' ∉ s.toList) (h : word s = .ok w) : Token.IsWhole w.toList := by
  -- Bare it has no quotes and no blanks, and in quotes its blanks are held together.
  rcases word_cases hquote h with ⟨rfl, ⟨hne, hbare⟩, -⟩ | rfl
  · refine ⟨hne, Token.readOver_bare _ fun c hc => ⟨?_, (hbare c hc).1⟩⟩
    rintro rfl
    exact hquote hc
  · rw [toList_inQuotes]
    refine ⟨List.cons_ne_nil _ _, ?_⟩
    rw [Token.readOver, if_pos rfl, Bool.not_false, Token.readOver_append,
      Token.readOver_inside hquote]
    rfl

/-- Without its quotes a written text is the text. -/
theorem unquoted_word (hquote : '"' ∉ s.toList) (h : word s = .ok w) :
    Token.unquoted w.toList = s.toList := by
  have hself : Token.unquoted s.toList = s.toList := by
    rw [Token.unquoted, List.filter_eq_self]
    intro c hc
    simpa using fun heq : c = '"' => hquote (heq ▸ hc)
  rcases word_cases hquote h with ⟨rfl, -⟩ | rfl
  · exact hself
  · rw [toList_inQuotes, Token.unquoted, List.filter_cons_of_neg (by decide), List.filter_append,
      ← Token.unquoted, hself, List.filter_cons_of_neg (by decide), List.filter_nil,
      List.append_nil]

/-- A written text is read back. -/
theorem ofRaw_word (hquote : '"' ∉ s.toList) (h : word s = .ok w) :
    Value.ofRaw .binary64 w.toList = .ok (.text s) := by
  have hunquoted := unquoted_word hquote h
  rcases word_cases hquote h with ⟨rfl, -, hread⟩ | rfl
  · exact hread
  · unfold Value.ofRaw
    rw [if_pos (by rw [toList_inQuotes]; simp), hunquoted, String.ofList_toList]
    rfl

/-- A written text starts with a quote or has no equals sign. -/
theorem head?_word (hquote : '"' ∉ s.toList) (h : word s = .ok w) :
    w.toList.head? = some '"' ∨ CueBody.hasEquals w.toList = false := by
  rcases word_cases hquote h with ⟨rfl, ⟨-, hbare⟩, -⟩ | rfl
  · right
    rw [CueBody.hasEquals, List.contains_eq_mem, decide_eq_false_iff_not]
    exact fun hmem => (hbare _ hmem).2 rfl
  · left
    rw [toList_inQuotes]
    rfl

/-- A written text is an argument and no parameter, and does not look like one without a key. -/
theorem isParameter_word (hquote : '"' ∉ s.toList) (h : word s = .ok w) :
    CueBody.isParameter w.toList = false ∧ CueBody.keyless? w.toList = none := by
  unfold CueBody.isParameter CueBody.keyless?
  rcases head?_word hquote h with hhead | hequals
  · rw [hhead]
    simp
  · rw [hequals]
    simp

/-- The characters of a written text are those of the text and quotes. -/
theorem mem_word (hquote : '"' ∉ s.toList) (h : word s = .ok w) {c : Char} (hc : c ∈ w.toList) :
    c ∈ s.toList ∨ c = '"' := by
  rcases word_cases hquote h with ⟨rfl, -⟩ | rfl
  · exact .inl hc
  · rw [toList_inQuotes, List.mem_cons, List.mem_append, List.mem_singleton] at hc
    tauto

end Render

end CueSheet
