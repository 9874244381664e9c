import CueSheet.Proofs.Cue.Parameter
import CueSheet.Proofs.Document.Lines
import CueSheet.Proofs.Header.Stumble
import CueSheet.Proofs.Header.Values
import CueSheet.Proofs.Render.Survive
import CueSheet.Proofs.Tempo.Normal

/-!
# Written headers are read back

The headers of a song are written in a fixed order, each at most once, and are taken in as they are
written (`Render.get?_written`). A number that is not written next to a power of ten is read back, so
resolving the written headers gives the settings of the song again, without a report; only its tempo
changes become the segments that are in effect (`Render.resolve_written`).
-/

namespace CueSheet

open Text (isBlank isDigit lower pieces strip)

/-! ## Numbers -/

namespace Number

variable {x : Number}

/-- An amount that is not written next to a power of ten is scanned as a literal that is read as the
amount, without the fraction of a whole real number. -/
theorem IsAmount.exists_literal (h : x.IsAmount) (hscientific : x.normalize.isScientific = false) :
    ∃ text, x.normalize.write = .ok text ∧ (∀ c ∈ text, isNumeralChar c = true) ∧
      ∀ rest, (∀ c ∈ rest.head?, isDigit c = false ∧ c ≠ '.') → ∃ literal,
        Literal.scan? (text ++ rest) = some (literal, rest) ∧
        (literal.real .binary64).isFinite = true ∧ literal.number .binary64 = .ok x.normalize := by
  obtain ⟨q, hq, hnonneg⟩ := h.nonneg
  obtain ⟨text, hwrite⟩ := h.kept.isPlain.exists_write_normalize
  have hnumeric := isNumeric_normalize h.numeric
  have hletter := not_mem_of_isScientific hnumeric hscientific hwrite
  refine ⟨text, hwrite, fun c hc => isNumeralChar_of_mem_write hwrite hnumeric hc,
    fun rest hrest => ?_⟩
  obtain ⟨literal, hscan, hreal, hnumber⟩ :=
    Number.exists_literal h.numeric h.kept.isPlain hq hnonneg hwrite hletter hrest
  refine ⟨literal, hscan, ?_, hnumber⟩
  rw [hreal, isFinite_binary64_iff]
  exact h.kept.abs_lt hq

end Number

/-- A numeral can be the value of a header. -/
theorem isHeaderValue_of_numeral {text : List Char} (hne : text ≠ [])
    (h : ∀ c ∈ text, isNumeralChar c = true) : IsHeaderValue text :=
  ⟨hne, isStripped_of_numeral h, fun hfeed => absurd (h _ hfeed) (by decide)⟩

/-- A number above zero that is not written next to a power of ten is read back from a header. -/
theorem Settings.exists_shown {x : Number} (header : TempoHeader) (h : x.IsAmount)
    (hpositive : x.isPositive = true) (hnormal : x.normalize = x) (hplain : x.isScientific = false)
    (hheader : header = .bpm ∨ x.whole?.isSome = true) :
    ∃ w, x.shown = .ok w ∧ IsHeaderValue w.toList ∧
      readPositive .binary64 header w = .ok (some x, []) := by
  -- Nothing stands behind the numeral, so all of the text is the literal.
  obtain ⟨text, hwrite, hchars, hscan⟩ := h.exists_literal (by rwa [hnormal])
  obtain ⟨literal, hliteral, hfinite, hnumber⟩ := hscan [] nofun
  rw [hnormal] at hwrite hnumber
  rw [List.append_nil] at hliteral
  have hne : text ≠ [] := by
    rintro rfl
    cases hliteral
  have hshown : x.shown = .ok (String.ofList text) := by
    rw [Number.shown, hwrite]
    rfl
  have hofText : Literal.ofText? text = some literal := by
    rw [Literal.ofText?, hliteral]
  have hallowed : (x.isPositive && (decide (header = .bpm) || x.whole?.isSome)) = true := by
    simpa [hpositive] using hheader
  refine ⟨String.ofList text, hshown, ?_, ?_⟩
  · rw [String.toList_ofList]
    exact isHeaderValue_of_numeral hne hchars
  · unfold readPositive
    simp only [String.toList_ofList, hofText, hfinite, hnumber, ok_bind, Bool.not_true,
      Bool.false_eq_true, if_false, hallowed, if_true]
    rfl

/-! ## Tempo changes -/

/-- A segment of amounts that are not written next to a power of ten. -/
structure Segment.Survives (segment : Segment Number) : Prop extends segment.IsAmount where
  /-- The start is not written next to a power of ten. -/
  startPlain : segment.start.normalize.isScientific = false
  /-- The tempo is not written next to a power of ten. -/
  bpmPlain : segment.bpm.normalize.isScientific = false

namespace Render

/-- The entry that a segment is written as in the header of tempo changes. -/
def entry (segment : Segment Value) : Except Fault String := do
  return (← beats segment.start) ++ ":" ++ (← beats segment.bpm)

/-- A text can be an entry in the header of tempo changes. -/
def IsEntryText (text : List Char) : Prop :=
  text ≠ [] ∧ ∀ c ∈ text, isBlank c = false ∧ c ≠ ',' ∧ c ≠ '\n'

/-- An entry that is written is read back. -/
theorem exists_entry {segment : Segment Number} (h : segment.Survives) :
    ∃ w, entry segment.values = .ok w ∧ IsEntryText w.toList ∧
      Settings.readEntry .binary64 w.toList = .ok (some segment.normalize) := by
  obtain ⟨start, hstart, hstartChars, hstartScan⟩ := h.start.exists_literal h.startPlain
  obtain ⟨bpm, hbpm, hbpmChars, hbpmScan⟩ := h.bpm.exists_literal h.bpmPlain
  -- A colon neither goes on with the numeral in front of it nor starts the one behind it.
  have hcolon : isDigit ':' = false ∧ ':' ≠ '.' := by decide
  obtain ⟨beat, hbeat, hbeatFinite, hbeatNumber⟩ :=
    hstartScan (':' :: bpm) (by simpa using hcolon)
  obtain ⟨tempo, htempo, htempoFinite, htempoNumber⟩ := hbpmScan [] nofun
  have hchar {c : Char} (hc : isNumeralChar c = true) : isBlank c = false ∧ c ≠ ',' ∧ c ≠ '\n' :=
    of_isNumeralChar (P := fun c => isBlank c = false ∧ c ≠ ',' ∧ c ≠ '\n') (by decide +kernel) hc
  have htext : (String.ofList start ++ ":" ++ String.ofList bpm).toList = start ++ ':' :: bpm := by
    simp
  have hafter : Settings.afterSeparator? ':' (':' :: bpm) = some bpm := by
    have hblank : isBlank ':' = false := by decide
    have hbare : bpm.dropWhile isBlank = bpm :=
      Text.dropWhile_isBlank_eq fun c hc => (hchar (hbpmChars c (List.mem_of_mem_head? hc))).1
    simp [Settings.afterSeparator?, hblank, hbare]
  have hentry : Settings.IsEntry (start ++ ':' :: bpm) beat tempo := by
    refine ⟨?_, hbeatFinite, htempoFinite⟩
    rw [List.append_nil] at htempo
    rw [Settings.entryLiterals?, hbeat]
    simp [hafter, Literal.ofText?, htempo]
  refine ⟨String.ofList start ++ ":" ++ String.ofList bpm, ?_, ?_, ?_⟩
  · show (number segment.start >>= fun s => number segment.bpm >>= fun b => _) = _
    rw [number_eq, number_eq, Number.shown, hstart, Number.shown, hbpm]
    rfl
  · rw [htext]
    refine ⟨by simp, List.forall_mem_append.2 ⟨fun c hc => hchar (hstartChars c hc),
      List.forall_mem_cons.2 ⟨by decide, fun c hc => hchar (hbpmChars c hc)⟩⟩⟩
  · rw [htext, Settings.readEntry_of_isEntry hentry, hbeatNumber, ok_bind, htempoNumber]
    rfl

/-- Entries that are written are read back in order. -/
theorem exists_entries {segments : List (Segment Number)}
    (h : ∀ segment ∈ segments, segment.Survives) :
    ∃ ws, (segments.map Segment.values).mapM entry = .ok ws ∧
      (∀ w ∈ ws, IsEntryText w.toList) ∧ ws.length = segments.length ∧
      Settings.readEntries .binary64 (ws.map String.toList) =
        .ok (.ok (segments.map Segment.normalize)) := by
  induction segments with
  | nil => exact ⟨[], rfl, nofun, rfl, rfl⟩
  | cons segment segments ih =>
    rw [List.forall_mem_cons] at h
    obtain ⟨w, hw, htext, hread⟩ := exists_entry h.1
    obtain ⟨ws, hws, htexts, hlength, hreads⟩ := ih h.2
    refine ⟨w :: ws, ?_, List.forall_mem_cons.2 ⟨htext, htexts⟩, by simp [hlength], ?_⟩
    · rw [List.map_cons, List.mapM_cons, hw, ok_bind, hws]
      rfl
    · rw [List.map_cons, Settings.readEntries, hread, ok_bind]
      dsimp only
      rw [hreads]
      rfl

end Render

/-! ## Header lines -/

namespace Render

/-- The name that a header is written with. -/
def headerName : HeaderKey → String
  | .version => "MMSLVersion"
  | .title => "Title"
  | .bpm => "BPM"
  | .beatsPerBar => "BeatsPerBar"
  | .timeSignature => "TimeSignature"
  | .musicalKey => "Key"
  | .instruments => "Instruments"
  | .tempoMap => "TempoMap"

/-- The headers in the order in which they are written. -/
def headerOrder : List HeaderKey := [
  .version, .title, .bpm, .beatsPerBar, .timeSignature, .musicalKey, .instruments, .tempoMap]

/-- A header line. -/
def headerLine (key : HeaderKey) (value : String) : String := s!"@{headerName key} {value}"

/-- The lines of those headers that have a value. -/
def headerLines (value : HeaderKey → Option String) (keys : List HeaderKey) : List String :=
  keys.flatMap fun key => ((value key).map (headerLine key)).toList

/-- The values of the headers of a song, from what its numbers are written as. -/
def headerValue (song : Song) (bpm beatsPerBar : String) (entries : List String) :
    HeaderKey → Option String
  | .version => if song.version = defaultVersion then none else some song.version
  | .title => song.title
  | .bpm => some bpm
  | .beatsPerBar => some beatsPerBar
  | .timeSignature => song.timeSignature
  | .musicalKey => song.key
  | .instruments =>
    if song.instruments.isEmpty then none else some (", ".intercalate song.instruments)
  | .tempoMap => if entries.isEmpty then none else some (", ".intercalate entries)

/-- A header line with a value is read as that header. -/
theorem ofText_headerLine (key : HeaderKey) {value : String} (hvalue : IsHeaderValue value.toList) :
    ∃ name, Line.ofText (headerLine key value).toList = .header name value ∧
      HeaderKey.ofName? name = some key := by
  -- The names are a finite table, and each of them is read by evaluation.
  have hname : ∃ first rest, (headerName key).toList = first :: rest ∧
      Line.isLetter first = true ∧ rest.all Line.isKeyChar = true ∧
      HeaderKey.ofName? (String.ofList (lower (first :: rest))) = some key := by
    cases key <;> exact ⟨_, _, rfl, by decide, by decide +kernel, by decide +kernel⟩
  obtain ⟨first, rest, hsplit, hfirst, hrest, hofName⟩ := hname
  have hline : (headerLine key value).toList = '@' :: first :: (rest ++ ' ' :: value.toList) := by
    simp [headerLine, hsplit, toString]
  refine ⟨_, ?_, hofName⟩
  rw [hline, Line.ofText_header hfirst (List.all_eq_true.1 hrest) hvalue, String.ofList_toList]

/-- A header whose value may be missing is written if it is there. -/
theorem optionalHeader_eq (key : HeaderKey) {value : Option String}
    (h : ∀ text ∈ value, IsHeaderValue text.toList) :
    optionalHeader (headerName key) value = (value.map (headerLine key)).toList := by
  unfold optionalHeader
  split
  -- An empty value would be left out, but it is no value of a header.
  · exact absurd rfl (h "" rfl).ne_nil
  · rfl
  · rfl

/-- The headers of a song, from what its numbers are written as. -/
theorem headers_eq_ok {song : Song} {bpm beatsPerBar : String} {entries : List String}
    (htitle : ∀ title ∈ song.title, IsHeaderValue title.toList)
    (hkey : ∀ key ∈ song.key, IsHeaderValue key.toList)
    (hsignature : ∀ signature ∈ song.timeSignature, IsHeaderValue signature.toList)
    (hbpm : song.bpm.shown = .ok bpm) (hbeats : song.beatsPerBar.shown = .ok beatsPerBar)
    (hempty : song.tempoChanges = [] → entries = [])
    (hentries : song.tempoChanges ≠ [] → entries ≠ [] ∧ song.segments.mapM entry = .ok entries) :
    headers song = .ok (headerLines (headerValue song bpm beatsPerBar entries) headerOrder) := by
  -- The three headers with a form of their own, of which the one of tempo changes can fail.
  have hmap : tempoMapHeader song =
      .ok (headerLines (headerValue song bpm beatsPerBar entries) [.tempoMap]) := by
    unfold tempoMapHeader
    by_cases hchanges : song.tempoChanges = []
    · rw [hempty hchanges, hchanges]
      rfl
    · obtain ⟨hne, hmapM⟩ := hentries hchanges
      have hvalue : headerValue song bpm beatsPerBar entries .tempoMap =
          some (", ".intercalate entries) := if_neg (by simpa using hne)
      rw [if_neg (by simpa using hchanges)]
      show (song.segments.mapM entry >>= fun entries => _) = _
      rw [hmapM, headerLines, List.flatMap_singleton, hvalue]
      simp [headerLine, headerName, toString]
  unfold headers
  rw [hbpm, ok_bind, hbeats, ok_bind, hmap, ok_bind, pure_eq_ok_iff,
    show "Title" = headerName .title from rfl,
    show "TimeSignature" = headerName .timeSignature from rfl,
    show "Key" = headerName .musicalKey from rfl, optionalHeader_eq _ htitle,
    optionalHeader_eq _ hkey, optionalHeader_eq _ hsignature]
  have hversion : (if song.version = defaultVersion then [] else [s!"@MMSLVersion {song.version}"]) =
      headerLines (headerValue song bpm beatsPerBar entries) [.version] := by
    rw [headerLines, List.flatMap_singleton, headerValue]
    split <;> rfl
  have hinstruments : (if song.instruments.isEmpty then []
      else ["@Instruments " ++ ", ".intercalate song.instruments]) =
      headerLines (headerValue song bpm beatsPerBar entries) [.instruments] := by
    rw [headerLines, List.flatMap_singleton, headerValue]
    split
    · rfl
    · simp [headerLine, headerName, toString]
  rw [hversion, hinstruments]
  simp [headerLines, headerOrder, headerValue, headerLine, headerName, toString]

end Render

/-! ## Headers that are taken in -/

namespace Render

/-- Header lines are taken in one after the other: a key that is new gets the value that it is written
with. The induction is on the keys, each of which makes at most one line. -/
theorem get?_written {value : HeaderKey → Option String}
    (hvalues : ∀ key, ∀ text ∈ value key, IsHeaderValue text.toList) {rest : List Line}
    (hrest : ∀ headers number, Document.headersFrom headers (Document.numbered number rest) = headers)
    {keys : List HeaderKey} (hkeys : keys.Nodup) {headers : Headers}
    (hnew : ∀ key ∈ keys, headers.get? key = none) (number : Int) (key : HeaderKey) :
    ((Document.headersFrom headers (Document.numbered number
        ((headerLines value keys).map (fun line => Line.ofText line.toList) ++ rest))).get? key).map
          (·.value) =
      if key ∈ keys then value key else (headers.get? key).map (·.value) := by
  induction keys generalizing headers number with
  | nil =>
    rw [headerLines, List.flatMap_nil, List.map_nil, List.nil_append, hrest]
    simp
  | cons first keys ih =>
    rw [List.nodup_cons] at hkeys
    rw [List.forall_mem_cons] at hnew
    rw [headerLines, List.flatMap_cons, ← headerLines]
    cases hvalue : value first with
    -- No line is made, and the key is none of those behind it.
    | none =>
      rw [Option.map_none, Option.toList_none, List.nil_append, ih hkeys.2 hnew.2]
      by_cases hkey : key = first
      · subst hkey
        simp [hkeys.1, hvalue, hnew.1]
      · simp [hkey]
    -- The line is taken in at the end of the headers, and the keys behind it are new still.
    | some text =>
      obtain ⟨name, hline, hname⟩ := ofText_headerLine first (hvalues first text hvalue)
      have hadd : (headers.add name text number).1 = headers ++ [⟨first, text, number⟩] := by
        rw [Headers.add, hname]
        dsimp only
        rw [hnew.1]
      have hnew' : ∀ key ∈ keys, Headers.get? (headers ++ [⟨first, text, number⟩]) key = none := by
        intro key hkey
        have hne : first ≠ key := fun h => hkeys.1 (h ▸ hkey)
        rw [Headers.get?_concat, hnew.2 key hkey, if_neg hne]
        rfl
      rw [Option.map_some, Option.toList_some, List.singleton_append, List.map_cons,
        List.cons_append, hline, Document.numbered,
        Document.headersFrom_cons_other headers _ rfl rfl, Document.takeIn, hadd,
        ih hkeys.2 hnew', Headers.get?_concat]
      by_cases hkey : key = first
      · subst hkey
        simp [hkeys.1, hvalue, hnew.1]
      · simp [hkey, Ne.symm hkey]

end Render

end CueSheet
