import CueSheet.Proofs.Header.Sound
import CueSheet.Proofs.Header.Stumble
import CueSheet.Proofs.Numeric.Literal
import CueSheet.Proofs.Text.Blank

/-!
# What headers are read to

Four headers hold numbers, and each has a form of its own: a tempo (`Settings.IsBpm`), a number of
beats in a bar (`Settings.IsBeats`), a time signature (`Settings.IsSignature`), and a tempo map,
which is one change after the other (`Settings.IsChange`). A header that has its form is read to
what it says, and without a report. Another one is reported once, on its line, and read to nothing
(`Settings.HeaderReads`, `Settings.ChangesRead`).
-/

namespace CueSheet.Settings

open Text (isBlank isDigit digitValues ofDigits strip pieces)

/-! ## Forms of values -/

/-- A value is a tempo: a decimal literal above zero. -/
def IsBpm (value : String) (bpm : Number) : Prop :=
  IsDecimal value.toList bpm ∧ bpm.isPositive = true

/-- A value is a number of beats: a decimal literal above zero without a point. -/
def IsBeats (value : String) (beats : ℕ) : Prop := IsDecimal value.toList (.int beats) ∧ 0 < beats

/-- A value is a time signature of so many beats: numbers above zero on both sides of a stroke,
which may have blanks around it. -/
def IsSignature (value : String) (beats : ℕ) : Prop :=
  ∃ upper before after lower, value.toList = upper ++ (before ++ '/' :: (after ++ lower)) ∧
    (∀ c ∈ upper ++ lower, isDigit c = true) ∧ (∀ c ∈ before ++ after, isBlank c = true) ∧
    ofDigits (digitValues upper) = beats ∧ 0 < beats ∧ 0 < ofDigits (digitValues lower)

/-- An entry is a tempo change: decimal literals on both sides of a colon, which may have blanks
around it. -/
def IsChange (entry : List Char) (change : Segment Number) : Prop :=
  ∃ start before after bpm, entry = start ++ (before ++ ':' :: (after ++ bpm)) ∧
    (∀ c ∈ before ++ after, isBlank c = true) ∧ IsDecimal start change.start ∧
    IsDecimal bpm change.bpm

/-! ## Around a separator -/

variable {separator : Char} {text rest : List Char}

/-- What is behind a separator starts behind the blanks around it. -/
theorem afterSeparator?_eq_some_iff (hseparator : isBlank separator = false) :
    afterSeparator? separator text = some rest ↔
      ∃ before after, text = before ++ separator :: (after ++ rest) ∧
        (∀ c ∈ before ++ after, isBlank c = true) ∧ ∀ c ∈ rest.head?, isBlank c = false := by
  have hblank (t : List Char) : ∀ c ∈ t.takeWhile isBlank, isBlank c = true :=
    fun c hc => List.mem_takeWhile_imp hc
  constructor
  · intro h
    have hsplit := List.takeWhile_append_dropWhile (p := isBlank) (l := text)
    unfold afterSeparator? at h
    split at h
    · next c later hlater =>
      split_ifs at h with hc
      obtain rfl := Option.some.inj h
      refine ⟨text.takeWhile isBlank, later.takeWhile isBlank, ?_,
        List.forall_mem_append.2 ⟨hblank text, hblank later⟩, Text.head?_dropWhile_isBlank⟩
      rw [List.takeWhile_append_dropWhile, ← hc, ← hlater, hsplit]
    · cases h
  · rintro ⟨before, after, rfl, hblanks, hrest⟩
    obtain ⟨hbefore, hafter⟩ := List.forall_mem_append.1 hblanks
    unfold afterSeparator?
    rw [List.dropWhile_append_of_pos hbefore, List.dropWhile_cons_of_neg (by simp [hseparator])]
    dsimp only
    rw [if_pos rfl, List.dropWhile_append_of_pos hafter, Text.dropWhile_isBlank_eq hrest]

/-- In front of a separator there is no digit and no point. -/
theorem head?_separator {before : List Char} (hbefore : ∀ c ∈ before, isBlank c = true)
    {separator : Char} (hseparator : isDigit separator = false ∧ separator ≠ '.')
    (later : List Char) :
    ∀ c ∈ (before ++ separator :: later).head?, isDigit c = false ∧ c ≠ '.' := by
  cases before with
  | nil =>
    rintro c hc
    obtain rfl := Option.some.inj hc
    exact hseparator
  | cons b before =>
    rintro c hc
    obtain rfl := Option.some.inj hc
    have hb := hbefore b List.mem_cons_self
    refine ⟨Bool.eq_false_iff.2 fun hdigit => ?_, ?_⟩
    · rw [Text.not_isBlank_of_isDigit hdigit] at hb
      cases hb
    · rintro rfl
      exact absurd hb (by decide)

/-- A literal starts with a digit. -/
theorem head?_of_isSpelled {literal : Literal} (h : Literal.IsSpelled text literal) :
    ∀ c ∈ text.head?, isBlank c = false := by
  have hdigits {digits : List Char} (hdigits : ∀ c ∈ digits, isDigit c = true) :
      ∀ c ∈ digits.head?, isBlank c = false := fun c hc =>
    Text.not_isBlank_of_isDigit (hdigits c (List.mem_of_mem_head? hc))
  cases h with
  | whole _ hall => exact hdigits hall
  | point hwhole _ hall =>
    rw [List.head?_append_of_ne_nil _ hwhole]
    exact hdigits (List.forall_mem_append.1 hall).1

/-! ## Single values -/

/-- What the value of a header is read to: what it says if it has its form, and otherwise nothing,
with one report. -/
inductive Reads {α : Type} (IsValid : α → Prop) (problem : Problem) : Option α → List Problem → Prop
    where
  /-- The value has its form. -/
  | valid {a : α} (h : IsValid a) : Reads IsValid problem (some a) []
  /-- The value does not have its form. -/
  | refused (h : ∀ a, ¬IsValid a) : Reads IsValid problem none [problem]

variable {value : String} {problems : List Problem}

/-- A decimal has one literal, and one number. -/
theorem IsDecimal.eq_value {text : List Char} {literal : Literal} {x : Number}
    (h : IsDecimal text x) (hliteral : Literal.ofText? text = some literal) :
    literal.rational < overflowAt ∧ x = literal.value := by
  obtain ⟨literal', hspelled, hlimit, hvalue⟩ := h
  obtain rfl := Option.some.inj (hliteral.symm.trans (Literal.ofText?_eq_some_iff.2 hspelled))
  exact ⟨hlimit, hvalue⟩

/-- A value is read to a number above zero, which is whole if it counts beats. -/
theorem reads_readPositive {header : TempoHeader} {number : Option Number}
    (h : readPositive .binary64 header value = .ok (number, problems)) :
    Reads (fun x => IsBpm value x ∧ (header = .bpm ∨ x.whole?.isSome = true))
      (.tempoHeader header value) number problems := by
  unfold readPositive at h
  dsimp only at h
  split at h
  · next hnone =>
    obtain ⟨rfl, rfl⟩ := Prod.mk.inj (pure_eq_ok_iff.1 h)
    refine .refused fun x hx => ?_
    obtain ⟨⟨⟨literal, hspelled, -, -⟩, -⟩, -⟩ := hx
    rw [Literal.ofText?_eq_some_iff.2 hspelled] at hnone
    cases hnone
  · next literal hliteral =>
    have hspelled := Literal.ofText?_eq_some_iff.1 hliteral
    split_ifs at h with hfinite
    · obtain ⟨rfl, rfl⟩ := Prod.mk.inj (pure_eq_ok_iff.1 h)
      rw [Bool.not_eq_true', ← Bool.not_eq_true, Literal.isFinite_real_iff] at hfinite
      exact .refused fun x hx => hfinite (IsDecimal.eq_value hx.1.1 hliteral).1
    · rw [Bool.not_eq_true', ← Bool.not_eq_true, not_not, Literal.isFinite_real_iff] at hfinite
      obtain ⟨x, hx, h⟩ := bind_eq_ok.1 h
      obtain rfl := Literal.eq_value_of_number hfinite hx
      split_ifs at h with hallowed
      · obtain ⟨rfl, rfl⟩ := Prod.mk.inj (pure_eq_ok_iff.1 h)
        rw [Bool.and_eq_true, Bool.or_eq_true, decide_eq_true_eq] at hallowed
        exact .valid ⟨⟨⟨literal, hspelled, hfinite, rfl⟩, hallowed.1⟩, hallowed.2⟩
      · obtain ⟨rfl, rfl⟩ := Prod.mk.inj (pure_eq_ok_iff.1 h)
        rw [Bool.and_eq_true, Bool.or_eq_true, decide_eq_true_eq] at hallowed
        refine .refused fun x hx => hallowed ?_
        obtain ⟨-, rfl⟩ := IsDecimal.eq_value hx.1.1 hliteral
        exact ⟨hx.1.2, hx.2⟩

/-- A value is read to a tempo. -/
theorem reads_bpm {number : Option Number}
    (h : readPositive .binary64 .bpm value = .ok (number, problems)) :
    Reads (IsBpm value) (.tempoHeader .bpm value) number problems := by
  cases reads_readPositive h with
  | valid hx => exact .valid hx.1
  | refused hnone => exact .refused fun x hx => hnone x ⟨hx, .inl rfl⟩

/-- A value is read to a number of beats. -/
theorem reads_beats {number : Option Number}
    (h : readPositive .binary64 .beatsPerBar value = .ok (number, problems)) :
    Reads (IsBeats value) (.tempoHeader .beatsPerBar value)
      ((number.bind (·.whole?)).map Int.toNat) problems := by
  cases reads_readPositive h with
  | @valid x hx =>
    obtain ⟨⟨hdecimal, hpositive⟩, hwhole⟩ := hx
    obtain ⟨literal, hspelled, hlimit, rfl⟩ := hdecimal
    unfold Literal.value at hpositive hwhole ⊢
    split_ifs at hpositive hwhole ⊢ with hfraction
    · have hpos : 0 < ofDigits literal.whole := by
        exact_mod_cast (Number.isPositive_iff (Number.toRat?_int _)).1 hpositive
      refine .valid ⟨⟨literal, hspelled, hlimit, ?_⟩, hpos⟩
      rw [Literal.value, if_pos hfraction]
      rfl
    · simp [Number.whole?] at hwhole
  | refused hnone =>
    refine .refused fun beats hbeats => hnone (.int beats) ⟨⟨hbeats.1, ?_⟩, .inr rfl⟩
    rw [Number.isPositive_iff (Number.toRat?_int _)]
    exact_mod_cast hbeats.2

/-- The sides of a time signature are the digits on both sides of a stroke. -/
theorem signatureDigits?_eq_some_iff {value upper lower : List Char} :
    signatureDigits? value = some (upper, lower) ↔
      ∃ before after, value = upper ++ (before ++ '/' :: (after ++ lower)) ∧
        (∀ c ∈ upper ++ lower, isDigit c = true) ∧ (∀ c ∈ before ++ after, isBlank c = true) ∧
        upper ≠ [] ∧ lower ≠ [] := by
  have hstroke : isBlank '/' = false := by decide
  constructor
  · intro h
    have hsplit := List.takeWhile_append_dropWhile (p := isDigit) (l := value)
    unfold signatureDigits? at h
    dsimp only at h
    split at h
    · cases h
    · next hafter =>
      obtain ⟨before, after, hrest, hblanks, -⟩ := (afterSeparator?_eq_some_iff hstroke).1 hafter
      split_ifs at h with hsides
      obtain ⟨rfl, rfl⟩ := Prod.mk.inj (Option.some.inj h)
      simp only [Bool.and_eq_true, Bool.not_eq_true', List.isEmpty_eq_false_iff,
        List.all_eq_true] at hsides
      refine ⟨before, after, by rw [← hrest, hsplit], ?_, hblanks, hsides.1.1, hsides.1.2⟩
      exact List.forall_mem_append.2 ⟨fun c => Literal.isDigit_of_mem_takeWhile, hsides.2⟩
  · rintro ⟨before, after, rfl, hdigits, hblanks, hupper, hlower⟩
    obtain ⟨hupperDigits, hlowerDigits⟩ := List.forall_mem_append.1 hdigits
    have hstop : isDigit '/' = false ∧ '/' ≠ '.' := by decide
    have hhead := head?_separator (List.forall_mem_append.1 hblanks).1 hstop (after ++ lower)
    obtain ⟨htake, hdrop⟩ := takeWhile_isDigit_append hupperDigits fun c hc => (hhead c hc).1
    have hafter : afterSeparator? '/' (before ++ '/' :: (after ++ lower)) = some lower :=
      (afterSeparator?_eq_some_iff hstroke).2 ⟨before, after, rfl, hblanks, fun c hc =>
        Text.not_isBlank_of_isDigit (hlowerDigits c (List.mem_of_mem_head? hc))⟩
    have hall : lower.all isDigit = true := List.all_eq_true.2 hlowerDigits
    simp [signatureDigits?, htake, hdrop, hafter, hupper, hlower, hall]

/-- A time signature has two sides, and these are the ones that are read. -/
theorem IsSignature.exists_digits {beats : ℕ} (h : IsSignature value beats) :
    ∃ upper lower, signatureDigits? value.toList = some (upper, lower) ∧
      ofDigits (digitValues upper) = beats ∧ 0 < beats ∧ 0 < ofDigits (digitValues lower) := by
  obtain ⟨upper, before, after, lower, hvalue, hdigits, hblanks, hbeats, hpos, hunit⟩ := h
  refine ⟨upper, lower, signatureDigits?_eq_some_iff.2
    ⟨before, after, hvalue, hdigits, hblanks, ?_, ?_⟩, hbeats, hpos, hunit⟩
  · rintro rfl
    exact hpos.ne hbeats
  · rintro rfl
    exact hunit.ne rfl

/-- A value is read to the beats of a time signature. -/
theorem reads_signature {signature : Option (String × ℕ)}
    (h : readSignature value = .ok (signature, problems)) :
    Reads (IsSignature value) (.timeSignature value) (signature.map (·.2)) problems := by
  unfold readSignature at h
  dsimp only at h
  split at h
  · next hnone =>
    obtain ⟨rfl, rfl⟩ := Prod.mk.inj (pure_eq_ok_iff.1 h)
    refine .refused fun beats hvalid => ?_
    obtain ⟨upper, lower, hsome, -⟩ := hvalid.exists_digits
    exact absurd (hnone.symm.trans hsome) nofun
  · next upper lower hread =>
    have honly {beats : ℕ} (hvalid : IsSignature value beats) :
        ofDigits (digitValues upper) ≠ 0 ∧ ofDigits (digitValues lower) ≠ 0 := by
      obtain ⟨upper', lower', hsome, rfl, hpos, hunit⟩ := hvalid.exists_digits
      obtain ⟨rfl, rfl⟩ := Prod.mk.inj (Option.some.inj (hread.symm.trans hsome))
      exact ⟨hpos.ne', hunit.ne'⟩
    obtain ⟨beats, hbeats, h⟩ := bind_eq_ok.1 h
    obtain ⟨-, rfl⟩ := readDigits_eq_ok_iff.1 hbeats
    split_ifs at h with hzero
    · obtain ⟨rfl, rfl⟩ := Prod.mk.inj (pure_eq_ok_iff.1 h)
      exact .refused fun beats hvalid => (honly hvalid).1 hzero
    · obtain ⟨unit, hunit, h⟩ := bind_eq_ok.1 h
      obtain ⟨-, rfl⟩ := readDigits_eq_ok_iff.1 hunit
      split_ifs at h with hunitZero
      · obtain ⟨rfl, rfl⟩ := Prod.mk.inj (pure_eq_ok_iff.1 h)
        exact .refused fun beats hvalid => (honly hvalid).2 hunitZero
      · obtain ⟨rfl, rfl⟩ := Prod.mk.inj (pure_eq_ok_iff.1 h)
        obtain ⟨before, after, hvalue, hdigits, hblanks, -⟩ := signatureDigits?_eq_some_iff.1 hread
        exact .valid ⟨upper, before, after, lower, hvalue, hdigits, hblanks, rfl,
          Nat.pos_of_ne_zero hzero, Nat.pos_of_ne_zero hunitZero⟩

/-! ## Tempo maps -/

/-- The literals of an entry are those on both sides of a colon. -/
theorem entryLiterals?_eq_some_iff {entry : List Char} {start bpm : Literal} :
    entryLiterals? entry = some (start, bpm) ↔
      ∃ first before after second, entry = first ++ (before ++ ':' :: (after ++ second)) ∧
        (∀ c ∈ before ++ after, isBlank c = true) ∧ Literal.IsSpelled first start ∧
        Literal.IsSpelled second bpm := by
  have hcolon : isBlank ':' = false := by decide
  unfold entryLiterals?
  simp only [Option.bind_eq_bind, Option.bind_eq_some_iff, Prod.exists, Option.pure_def,
    Option.some.injEq, Prod.mk.injEq]
  constructor
  · rintro ⟨start, rest, hscan, second, hafter, bpm, hbpm, rfl, rfl⟩
    obtain ⟨first, rfl, hfirst⟩ := Literal.exists_isSpelled_of_scan? hscan
    obtain ⟨before, after, rfl, hblanks, -⟩ := (afterSeparator?_eq_some_iff hcolon).1 hafter
    exact ⟨first, before, after, second, rfl, hblanks, hfirst, Literal.ofText?_eq_some_iff.1 hbpm⟩
  · rintro ⟨first, before, after, second, rfl, hblanks, hfirst, hsecond⟩
    have hstop : isDigit ':' = false ∧ ':' ≠ '.' := by decide
    have hhead := head?_separator (List.forall_mem_append.1 hblanks).1 hstop (after ++ second)
    exact ⟨start, _, hfirst.scan? hhead, second, (afterSeparator?_eq_some_iff hcolon).2
      ⟨before, after, rfl, hblanks, head?_of_isSpelled hsecond⟩, bpm,
      Literal.ofText?_eq_some_iff.2 hsecond, rfl, rfl⟩

/-- An entry is a tempo change exactly if it is one of two numbers that are small enough, and these
are its numbers. -/
theorem isChange_iff {entry : List Char} {change : Segment Number} :
    IsChange entry change ↔
      ∃ start bpm, IsEntry entry start bpm ∧ change = ⟨start.value, bpm.value⟩ := by
  obtain ⟨beat, tempo⟩ := change
  simp only [IsEntry, entryLiterals?_eq_some_iff, Literal.isFinite_real_iff, Segment.mk.injEq]
  constructor
  · rintro ⟨first, before, after, second, hentry, hblanks, ⟨start, hstart, hstartLimit, rfl⟩,
      ⟨bpm, hbpm, hbpmLimit, rfl⟩⟩
    exact ⟨start, bpm, ⟨⟨first, before, after, second, hentry, hblanks, hstart, hbpm⟩, hstartLimit,
      hbpmLimit⟩, rfl, rfl⟩
  · rintro ⟨start, bpm, ⟨⟨first, before, after, second, hentry, hblanks, hstart, hbpm⟩, hstartLimit,
      hbpmLimit⟩, rfl, rfl⟩
    exact ⟨first, before, after, second, hentry, hblanks, ⟨start, hstart, hstartLimit, rfl⟩,
      ⟨bpm, hbpm, hbpmLimit, rfl⟩⟩

/-- An entry is read to the tempo change that it is, and to nothing if it is none. -/
theorem readEntry_eq_ok {entry : List Char} {change? : Option (Segment Number)}
    (h : readEntry .binary64 entry = .ok change?) :
    (∃ change, IsChange entry change ∧ change? = some change) ∨
      (∀ change, ¬IsChange entry change) ∧ change? = none := by
  by_cases hentry : ∃ start bpm, IsEntry entry start bpm
  · obtain ⟨start, bpm, hentry⟩ := hentry
    rw [readEntry_of_isEntry hentry] at h
    obtain ⟨beat, hbeat, h⟩ := bind_eq_ok.1 h
    obtain ⟨tempo, htempo, h⟩ := bind_eq_ok.1 h
    obtain rfl := Except.ok.inj h
    obtain rfl := Literal.eq_value_of_number (Literal.isFinite_real_iff.1 hentry.2.1) hbeat
    obtain rfl := Literal.eq_value_of_number (Literal.isFinite_real_iff.1 hentry.2.2) htempo
    exact .inl ⟨_, isChange_iff.2 ⟨start, bpm, hentry, rfl⟩, rfl⟩
  · rw [readEntry_of_not_isEntry hentry] at h
    refine .inr ⟨fun change hchange => ?_, (Except.ok.inj h).symm⟩
    obtain ⟨start, bpm, hisEntry, -⟩ := isChange_iff.1 hchange
    exact hentry ⟨start, bpm, hisEntry⟩

/-- What entries are read to: the changes that they are if each is one, and otherwise the first one
that is none. -/
inductive EntriesRead (entries : List (List Char)) : Except String (List (Segment Number)) → Prop where
  /-- Each entry is a change. -/
  | changes {changes : List (Segment Number)} (h : List.Forall₂ IsChange entries changes) :
    EntriesRead entries (.ok changes)
  /-- An entry is no change. -/
  | refused {before after : List (List Char)} {entry : List Char}
    (hentries : entries = before ++ entry :: after)
    (hbefore : ∀ other ∈ before, ∃ change, IsChange other change)
    (hrefused : ∀ change, ¬IsChange entry change) : EntriesRead entries (.error (String.ofList entry))

/-- Entries are read one after the other, up to the first one that is no change. -/
theorem entriesRead_of_readEntries {entries : List (List Char)}
    {result : Except String (List (Segment Number))}
    (h : readEntries .binary64 entries = .ok result) : EntriesRead entries result := by
  induction entries generalizing result with
  | nil =>
    obtain rfl := pure_eq_ok_iff.1 h
    exact .changes .nil
  | cons entry entries ih =>
    obtain ⟨change?, hread, h⟩ := bind_eq_ok.1 h
    obtain ⟨change, hchange, rfl⟩ | ⟨hrefused, rfl⟩ := readEntry_eq_ok hread
    · obtain ⟨rest, hrest, h⟩ := bind_eq_ok.1 h
      obtain rfl := pure_eq_ok_iff.1 h
      cases ih hrest with
      | changes hchanges => exact .changes (.cons hchange hchanges)
      | refused hentries hbefore hrefused =>
        exact .refused (congrArg _ hentries) (List.forall_mem_cons.2 ⟨⟨change, hchange⟩, hbefore⟩)
          hrefused
    · obtain rfl := pure_eq_ok_iff.1 h
      exact .refused (List.nil_append _).symm (List.forall_mem_nil _) hrefused

/-! ## Headers -/

/-- What a header is read to: nothing if it is missing, what it says if its value has its form, and
otherwise nothing, with one report on its line. -/
inductive HeaderReads {α : Type} (header? : Option Header) (IsValid : String → α → Prop)
    (problem : String → Problem) : Option α → List Diagnostic → Prop where
  /-- The header is missing. -/
  | absent (h : header? = none) : HeaderReads header? IsValid problem none []
  /-- The value has its form. -/
  | valid {header : Header} {a : α} (hheader : header? = some header) (h : IsValid header.value a) :
    HeaderReads header? IsValid problem (some a) []
  /-- The value does not have its form. -/
  | refused {header : Header} (hheader : header? = some header) (h : ∀ a, ¬IsValid header.value a) :
    HeaderReads header? IsValid problem none [.onLine header.line (problem header.value)]

/-- What the header of the tempo map is read to: no changes if it is missing, those that it says if
each of its entries is one, and otherwise none, with one report of the first other entry. -/
inductive ChangesRead (header? : Option Header) : List (Segment Number) → List Diagnostic → Prop where
  /-- The header is missing. -/
  | absent (h : header? = none) : ChangesRead header? [] []
  /-- Each entry is a change. -/
  | changes {header : Header} {changes : List (Segment Number)} (hheader : header? = some header)
    (h : List.Forall₂ IsChange (entriesOf header.value) changes) : ChangesRead header? changes []
  /-- An entry is no change. -/
  | refused {header : Header} {before after : List (List Char)} {entry : List Char}
    (hheader : header? = some header)
    (hentries : entriesOf header.value = before ++ entry :: after)
    (hbefore : ∀ other ∈ before, ∃ change, IsChange other change)
    (hrefused : ∀ change, ¬IsChange entry change) :
    ChangesRead header? [] [.onLine header.line (.tempoMapEntry (String.ofList entry))]

variable {headers : Headers} {key : HeaderKey} {diagnostics : List Diagnostic}

/-- A header is read to what its value is read to. -/
theorem headerReads_of_readsHeader {α β : Type}
    {read : String → Except Fault (Option α × List Problem)} {result : Option α}
    {IsValid : String → β → Prop} {problem : String → Problem} {f : Option α → Option β}
    (hnone : f none = none)
    (hread : ∀ value result problems, read value = .ok (result, problems) →
      Reads (IsValid value) (problem value) (f result) problems)
    (h : ReadsHeader headers key read none result diagnostics) :
    HeaderReads (headers.get? key) IsValid problem (f result) diagnostics := by
  cases h with
  | absent habsent =>
    rw [hnone]
    exact .absent habsent
  | present hheader hresult =>
    have hreads := hread _ _ _ hresult
    generalize f result = b at hreads ⊢
    cases hreads with
    | valid hvalid => exact .valid hheader hvalid
    | refused hrefused => exact .refused hheader hrefused

/-- The header of the tempo map is read to what its entries are read to. -/
theorem changesRead_of_readsHeader {changes : List (Segment Number)}
    (h : ReadsHeader headers .tempoMap (readTempoMap .binary64) [] changes diagnostics) :
    ChangesRead (headers.get? .tempoMap) changes diagnostics := by
  cases h with
  | absent hnone => exact .absent hnone
  | present hheader hread =>
    obtain ⟨result, hresult, hread⟩ := bind_eq_ok.1 hread
    cases entriesRead_of_readEntries hresult with
    | changes hchanges =>
      obtain ⟨rfl, rfl⟩ := Prod.mk.inj (pure_eq_ok_iff.1 hread)
      exact .changes hheader hchanges
    | refused hentries hbefore hrefused =>
      obtain ⟨rfl, rfl⟩ := Prod.mk.inj (pure_eq_ok_iff.1 hread)
      exact .refused hheader hentries hbefore hrefused

end CueSheet.Settings
