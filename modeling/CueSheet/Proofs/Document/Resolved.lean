import CueSheet.Proofs.Document.Errors
import CueSheet.Proofs.Document.HeaderOrder
import CueSheet.Proofs.Header.Valid

/-!
# What a document settles

The tempo of a song and the number of beats in its bars are settled by a precedence of overrides,
headers and defaults, and whatever the headers say, they come out as a tempo that is finite and
above zero and as a number of beats that is at least one (`Document.numbers_of_read`). The headers
count as they are first seen in the heading (`Document.get?_headersOf`), and they are read and
reported whether or not an override wins over them. Nothing else is reported as an error.
-/

namespace CueSheet

open Settings (IsBpm IsBeats IsSignature HeaderReads ChangesRead)

/-! ## First headers -/

namespace Document

/-- The header of a key that a line is, if it is one. -/
def headerOn? (key : HeaderKey) : NumberedLine → Option Header
  | (number, .header name value) =>
    if HeaderKey.ofName? name = some key then some ⟨key, value, number⟩ else none
  | _ => none

/-- The first header of a key in the heading. -/
def firstHeader? (lines : List NumberedLine) (key : HeaderKey) : Option Header :=
  (heading lines).findSome? (headerOn? key)

/-- The header of a key among those that are taken in is one that was there, or the one of the line.
-/
theorem get?_takeIn (headers : Headers) (line : NumberedLine) (key : HeaderKey) :
    (takeIn headers line).get? key = (headers.get? key).or (headerOn? key line) := by
  obtain ⟨number, line⟩ := line
  cases line with
  | header name value => exact Headers.get?_add headers name value number key
  | blank | sectionStart | performanceLyric | performance | cue | lyric => exact Option.or_none.symm

/-- The header of a key that counts is the first one in the heading. -/
theorem get?_headersOf (lines : List NumberedLine) (key : HeaderKey) :
    (headersOf lines).get? key = firstHeader? lines key := by
  have hfold (headers : Headers) (lines : List NumberedLine) :
      (lines.foldl takeIn headers).get? key =
        (headers.get? key).or (lines.findSome? (headerOn? key)) := by
    induction lines generalizing headers with
    | nil => exact Option.or_none.symm
    | cons line lines ih =>
      rw [List.foldl_cons, ih, get?_takeIn, Option.or_assoc, List.findSome?_cons]
      cases headerOn? key line <;> rfl
  exact hfold [] (heading lines)

end Document

/-! ## Numbers -/

/-- The numbers that headers say, as far as they say any. -/
structure HeaderNumbers where
  /-- The tempo changes. -/
  changes : List (Segment Number)
  /-- The number of beats in the time signature. -/
  signature : Option ℕ
  /-- The tempo. -/
  bpm : Option Number
  /-- The number of beats in a bar. -/
  beatsPerBar : Option ℕ

namespace HeaderNumbers

/-- The numbers are those of the first headers, and what is reported of these headers are the
errors.
-/
def AreRead (first? : HeaderKey → Option Header) (numbers : HeaderNumbers)
    (errors : List Diagnostic) : Prop :=
  ∃ ofChanges ofSignature ofBpm ofBeats,
    ChangesRead (first? .tempoMap) numbers.changes ofChanges ∧
    HeaderReads (first? .timeSignature) IsSignature .timeSignature numbers.signature ofSignature ∧
    HeaderReads (first? .bpm) IsBpm (.tempoHeader .bpm) numbers.bpm ofBpm ∧
    HeaderReads (first? .beatsPerBar) IsBeats (.tempoHeader .beatsPerBar) numbers.beatsPerBar
      ofBeats ∧
    errors = ofChanges ++ ofSignature ++ ofBpm ++ ofBeats

/-- The tempo that holds: the override, or else that of its header, or else that of the first change
at beat zero unless it is zero, or else the default. -/
def tempo (config : Config) (numbers : HeaderNumbers) : Number :=
  ([config.bpm.map (·.val), numbers.bpm, Settings.declaredBpm? numbers.changes].findSome? id).getD
    config.defaultBpm.val

/-- The number of beats in a bar that holds: the override, or else that of its header, or else that
of the time signature, or else the default. -/
def beats (config : Config) (numbers : HeaderNumbers) : ℕ :=
  ([config.beatsPerBar.map (·.val), numbers.beatsPerBar, numbers.signature].findSome? id).getD
    config.defaultBeatsPerBar.val

end HeaderNumbers

/-- The first of three candidates that is there. -/
theorem findSome?_three {α : Type} (a b c : Option α) :
    [a, b, c].findSome? id = a.or (b.or c) := by
  cases a <;> cases b <;> cases c <;> rfl

/-- What headers report of their values are errors. -/
theorem Settings.HeaderReads.filter_isError {α : Type} {header? : Option Header}
    {IsValid : String → α → Prop} {problem : String → Problem} {result : Option α}
    {diagnostics : List Diagnostic} (hproblem : ∀ value, (problem value).severity = .error)
    (h : HeaderReads header? IsValid problem result diagnostics) :
    diagnostics.filter Diagnostic.isError = diagnostics := by
  cases h with
  | absent | valid => rfl
  | refused =>
    refine List.filter_cons_of_pos ?_
    simp [Diagnostic.isError, Diagnostic.onLine, hproblem]

/-- What the header of the tempo map reports is an error. -/
theorem Settings.ChangesRead.filter_isError {header? : Option Header}
    {changes : List (Segment Number)} {diagnostics : List Diagnostic}
    (h : ChangesRead header? changes diagnostics) :
    diagnostics.filter Diagnostic.isError = diagnostics := by
  cases h <;> rfl

/-- What a header is read to is what its value says. -/
theorem Settings.HeaderReads.isValid {α : Type} {header? : Option Header}
    {IsValid : String → α → Prop} {problem : String → Problem} {result : Option α}
    {diagnostics : List Diagnostic} (h : HeaderReads header? IsValid problem result diagnostics) :
    ∀ a ∈ result, ∃ value, IsValid value a := by
  cases h with
  | absent | refused => nofun
  | valid hheader hvalid =>
    intro a ha
    obtain rfl := Option.some.inj ha
    exact ⟨_, hvalid⟩

variable {config : Config} {headers : Headers} {settings : Settings}
  {diagnostics : List Diagnostic}

/-- The number of beats in a bar is at least one, wherever it comes from. -/
theorem HeaderNumbers.beats_pos {first? : HeaderKey → Option Header} {numbers : HeaderNumbers}
    (h : numbers.AreRead first? diagnostics) : 0 < numbers.beats config := by
  obtain ⟨_, _, _, _, -, hsignature, -, hbeats, -⟩ := h
  rw [beats, findSome?_three]
  refine Settings.of_getD (P := fun n => 0 < n) (Settings.of_or ?_ (Settings.of_or ?_ ?_))
    config.defaultBeatsPerBar.property
  · intro n hn
    obtain ⟨count, -, rfl⟩ := Option.map_eq_some_iff.1 hn
    exact count.property
  · intro n hn
    obtain ⟨value, hvalid⟩ := hbeats.isValid n hn
    exact hvalid.2
  · intro n hn
    obtain ⟨value, -, -, -, -, -, -, -, -, hpos, -⟩ := hsignature.isValid n hn
    exact hpos

/-- Headers are resolved to the numbers that they say, by precedence. -/
theorem Settings.numbers_of_resolve
    (h : resolve .binary64 config headers = .ok (settings, diagnostics)) :
    ∃ numbers : HeaderNumbers,
      numbers.AreRead headers.get? (diagnostics.filter Diagnostic.isError) ∧
      settings.tempoChanges = numbers.changes ∧ settings.bpm = (numbers.tempo config).normalize ∧
      settings.beatsPerBar = numbers.beats config := by
  obtain @⟨changes, signature, bpm, beats, ofChanges, ofSignature, ofBpm, ofBeats, hchanges,
    hsignature, hbpm, hbeats⟩ := resolvesTo_of_resolve h
  -- Each header is read for itself, and all that is reported about it are errors.
  have hchanges := changesRead_of_readsHeader hchanges
  have hsignature := headerReads_of_readsHeader (f := Option.map (·.2)) rfl
    (fun _ _ _ => reads_signature) hsignature
  have hbpm := headerReads_of_readsHeader (f := id) rfl (fun _ _ _ => reads_bpm) hbpm
  have hbeats := headerReads_of_readsHeader
    (f := fun number : Option Number => (number.bind (·.whole?)).map Int.toNat) rfl
    (fun _ _ _ => reads_beats) hbeats
  refine ⟨⟨changes, signature.map (·.2), bpm, (beats.bind (·.whole?)).map Int.toNat⟩,
    ⟨ofChanges, ofSignature, ofBpm, ofBeats, hchanges, hsignature, hbpm, hbeats, ?_⟩, rfl, ?_, ?_⟩
  · rw [List.filter_append, List.filter_append, List.filter_append, hchanges.filter_isError,
      hsignature.filter_isError fun _ => rfl, hbpm.filter_isError fun _ => rfl,
      hbeats.filter_isError fun _ => rfl]
  · rw [HeaderNumbers.tempo, findSome?_three]
  · rw [HeaderNumbers.beats, findSome?_three]

/-- A tempo as a whole number where it is one. -/
theorem Number.normalize_of_isTempo {x : Number} {q : ℚ} (h : x.isNumeric = true)
    (hq : x.toRat? = some q) (hpos : 0 < q) :
    (.number x.normalize : Value) = if q.den = 1 then .int q.num else .number (.real (.finite q)) := by
  cases x with
  | bool => cases h
  | int n =>
    obtain rfl := Option.some.inj hq
    rfl
  | real x =>
    obtain rfl | ⟨rfl, rfl⟩ := Extended.eq_finite_or_negZero hq
    · unfold normalize
      dsimp only [Extended.toRat?]
      split_ifs <;> rfl
    · exact absurd hpos (lt_irrefl 0)

namespace Document

/-- What a document settles. The numbers that its first headers say are read, whatever the overrides
are: a header with a value of its form is read to it, and another one is reported by one error on
its line, as an unreadable entry of the tempo map is by a fatal one; there are no other errors. The
tempo of the song, the number of beats in its bars and its tempo changes are those that hold by
precedence. The tempo is a finite number above zero, and a whole number where it is one, and there
is at least one beat in a bar. -/
theorem numbers_of_read {text : List Char} {document : Document}
    (h : read .binary64 config text = .ok document) :
    ∃ numbers : HeaderNumbers,
      numbers.AreRead (firstHeader? (numberedLines text))
        (document.diagnostics.filter Diagnostic.isError) ∧
      document.song.tempoChanges = numbers.changes.map (·.map .number) ∧
      (∃ q : ℚ, (numbers.tempo config).toRat? = some q ∧ 0 < q ∧ document.song.bpm =
        if q.den = 1 then .int q.num else .number (.real (.finite q))) ∧
      document.song.beatsPerBar = .int (numbers.beats config) ∧ 0 < numbers.beats config := by
  obtain ⟨settings, resolved, hresolve, herrors⟩ := errorsAre_of_read h
  obtain ⟨settings', resolved', hresolve', hsong⟩ := settings_of_read h
  obtain ⟨rfl, -⟩ := Prod.mk.inj (Except.ok.inj (hresolve.symm.trans hresolve'))
  obtain ⟨numbers, hread, hchanges, hbpm, hbeats⟩ := Settings.numbers_of_resolve hresolve
  have hfirst : (headersOf (numberedLines text)).get? = firstHeader? (numberedLines text) :=
    funext fun key => get?_headersOf (numberedLines text) key
  rw [hfirst, ← herrors] at hread
  obtain ⟨hnumeric, q, hq, hpos⟩ := Number.isTempo_iff.1 (Settings.isTempo_of_resolve hresolve)
  refine ⟨numbers, hread, ?_, ⟨q, ?_, hpos, ?_⟩, ?_, HeaderNumbers.beats_pos hread⟩
  · rw [hsong, ← hchanges]
    rfl
  · rw [← Number.toRat?_normalize, ← hbpm, hq]
  · -- The tempo of the settings is in its normal form already.
    rw [← Number.normalize_of_isTempo hnumeric hq hpos, hbpm, Number.normalize_normalize, ← hbpm,
      hsong]
    rfl
  · rw [hsong, ← hbeats]
    rfl

/-- A text whose tempo is zero and whose number of beats has a point, with other headers to fall
back on. -/
def fallbackText : List Char :=
  "@BPM 0\n@BPM 60\n@TempoMap 4:120, 0 : 90.0\n@BeatsPerBar 3.0\n@TimeSignature 6/8\nla".toList

/-- The tempo comes from the entry on beat zero, and the number of beats from the time signature.
The two headers that give none are the errors. -/
theorem numbers_of_read_fallbackText : ∃ document numbers,
    read .binary64 .standard fallbackText = .ok document ∧ document.song.bpm = .int 90 ∧
      document.song.beatsPerBar = .int 6 ∧
      document.diagnostics.filter Diagnostic.isError =
        [.onLine 1 (.tempoHeader .bpm "0"), .onLine 4 (.tempoHeader .beatsPerBar "3.0")] ∧
      HeaderNumbers.AreRead (firstHeader? (numberedLines fallbackText)) numbers
        (document.diagnostics.filter Diagnostic.isError) := by
  have hread : (read .binary64 .standard fallbackText).toOption.map (fun document =>
      (document.song.bpm, document.song.beatsPerBar,
        document.diagnostics.filter Diagnostic.isError)) =
      some (.int 90, .int 6,
        [.onLine 1 (.tempoHeader .bpm "0"), .onLine 4 (.tempoHeader .beatsPerBar "3.0")]) := by
    decide +kernel
  cases h : read .binary64 .standard fallbackText with
  | error fault => simp [h, Except.toOption] at hread
  | ok document =>
    simp only [h, Except.toOption, Option.map_some, Option.some.injEq, Prod.mk.injEq] at hread
    obtain ⟨hbpm, hbeats, herrors⟩ := hread
    obtain ⟨numbers, hnumbers, -⟩ := numbers_of_read h
    exact ⟨document, numbers, rfl, hbpm, hbeats, herrors, hnumbers⟩

end Document

end CueSheet
