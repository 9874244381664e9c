import CueSheet.Proofs.Render.Header

/-!
# Written headers are resolved to the same settings

Whatever headers a document starts with, the headers that its song is written with are resolved to
the settings of the song, without a report (`Settings.resolve_written`). Overrides stay in force, and
nothing is left to the defaults but the version, which is written only if it is not the default. The
tempo changes alone are not those of the song: they are the segments that are in effect, with whole
numbers where they are whole.
-/

namespace CueSheet

open Text (pieces strip)

namespace Settings

variable {ρ : Rounding} {config : Config} {headers : Headers} {settings : Settings}

/-- Settings have what the configuration puts in place of headers, and their tempo is a whole number
if it is whole. -/
structure Obeys (settings : Settings) (config : Config) : Prop where
  /-- The tempo is the one that is put in place of others. -/
  bpm : ∀ tempo ∈ config.bpm, settings.bpm = tempo.val.normalize
  /-- The tempo is a whole number if it is whole. -/
  normal : settings.bpm.normalize = settings.bpm
  /-- The number of beats in a bar is the one that is put in place of others. -/
  beatsPerBar : ∀ beats ∈ config.beatsPerBar, settings.beatsPerBar = beats.val

/-- The settings that headers are resolved to obey the configuration. -/
theorem obeys_of_resolve {diagnostics : List Diagnostic}
    (h : resolve ρ config headers = .ok (settings, diagnostics)) : settings.Obeys config := by
  obtain ⟨-, -, -, -⟩ := resolvesTo_of_resolve h
  refine ⟨fun tempo htempo => ?_, Number.normalize_normalize _, fun beats hbeats => ?_⟩
  · rw [Option.mem_def.1 htempo]
    rfl
  · rw [Option.mem_def.1 hbeats]
    rfl

section

variable {α : Type} {key : HeaderKey} {value : String} {read : String → Except Fault (α × List Problem)}
  {absent result : α}

/-- A header with a value is read to what the value is read to. -/
theorem readIfPresent_of_value (hvalue : (headers.get? key).map (·.value) = some value)
    (hread : read value = .ok (result, [])) :
    readIfPresent headers key read absent = .ok (result, []) := by
  obtain ⟨header, hheader, rfl⟩ := Option.map_eq_some_iff.1 hvalue
  rw [readIfPresent, hheader]
  dsimp only
  rw [hread]
  rfl

/-- A header that is missing is read to what stands for it. -/
theorem readIfPresent_of_none (h : (headers.get? key).map (·.value) = none) :
    readIfPresent headers key read absent = .ok (absent, []) := by
  rw [readIfPresent, Option.map_eq_none_iff.1 h]
  rfl

end

/-- Names without commas are read back from a list of them. -/
theorem readNames_intercalate {names : List String} (hne : names ≠ [])
    (h : ∀ name ∈ names, IsListedName name.toList) :
    readNames (", ".intercalate names) = names := by
  have hpieces : (pieces (· == ',') (", ".intercalate names).toList).map strip =
      names.map String.toList := by
    rw [String.toList_intercalate]
    refine Text.strip_pieces_intercalate (by simpa using hne) ?_
    exact List.forall_mem_map.2 fun name hname => ⟨(h name hname).stripped, (h name hname).comma⟩
  have hnonempty : (names.map String.toList).filter (!·.isEmpty) = names.map String.toList := by
    refine List.filter_eq_self.2 (List.forall_mem_map.2 fun name hname => ?_)
    simpa using (h name hname).ne_nil
  rw [readNames, hpieces, hnonempty, List.map_map]
  exact List.map_id'' (fun name => String.ofList_toList) names

/-- Entries that are read to tempo changes are read to them from a list as well. -/
theorem readTempoMap_intercalate {entries : List String} {changes : List (Segment Number)}
    (hne : entries ≠ []) (hentries : ∀ w ∈ entries, Render.IsEntryText w.toList)
    (h : readEntries ρ (entries.map String.toList) = .ok (.ok changes)) :
    readTempoMap ρ (", ".intercalate entries) = .ok (changes, []) := by
  have hpieces : (pieces (· == ',') (", ".intercalate entries).toList).map strip =
      entries.map String.toList := by
    rw [String.toList_intercalate]
    refine Text.strip_pieces_intercalate (by simpa using hne) ?_
    refine List.forall_mem_map.2 fun w hw => ⟨?_, fun hcomma => ?_⟩
    · exact Text.isStripped_of_bare fun c hc => ((hentries w hw).2 c hc).1
    · exact ((hentries w hw).2 _ hcomma).2.1 rfl
  rw [readTempoMap, hpieces, h]
  rfl

/-- The header of a time signature is read to the time signature that it is written for. -/
theorem readIfPresent_signature (hread : settings.IsRead)
    (hvalue : (headers.get? .timeSignature).map (·.value) = settings.timeSignature) :
    ∃ signature, readIfPresent headers .timeSignature readSignature none = .ok (signature, []) ∧
      signature.map (·.1) = settings.timeSignature := by
  cases htext : settings.timeSignature with
  | none => exact ⟨none, readIfPresent_of_none (hvalue.trans htext), rfl⟩
  | some text =>
    obtain ⟨-, beats, hself⟩ := hread.timeSignature text htext
    exact ⟨some (text, beats), readIfPresent_of_value (hvalue.trans htext) hself, rfl⟩

/-- The header of tempo changes is read to what its entries are read to. -/
theorem readIfPresent_tempoMap {entries : List String} {changes : List (Segment Number)}
    (hentries : ∀ w ∈ entries, Render.IsEntryText w.toList)
    (hchanges : readEntries ρ (entries.map String.toList) = .ok (.ok changes))
    (hvalue : (headers.get? .tempoMap).map (·.value) =
      if entries.isEmpty then none else some (", ".intercalate entries)) :
    readIfPresent headers .tempoMap (readTempoMap ρ) [] = .ok (changes, []) := by
  by_cases hempty : entries = []
  · subst hempty
    obtain rfl := Except.ok.inj (Except.ok.inj hchanges)
    exact readIfPresent_of_none hvalue
  · refine readIfPresent_of_value (hvalue.trans (if_neg ?_))
      (readTempoMap_intercalate hempty hentries hchanges)
    simpa using hempty

/-- The headers that a song is written with are resolved to its settings, with the tempo changes that
its entries are read to, and nothing is reported. -/
theorem resolve_written {bpm beatsPerBar : String} {entries : List String}
    {changes : List (Segment Number)} {sections : List Section} (hread : settings.IsRead)
    (hobeys : settings.Obeys config)
    (hbpm : readPositive .binary64 .bpm bpm = .ok (some settings.bpm, []))
    (hbeats : readPositive .binary64 .beatsPerBar beatsPerBar =
      .ok (some (.int settings.beatsPerBar), []))
    (hentries : ∀ w ∈ entries, Render.IsEntryText w.toList)
    (hchanges : readEntries .binary64 (entries.map String.toList) = .ok (.ok changes))
    (hget : ∀ key, (headers.get? key).map (·.value) =
      Render.headerValue (Document.toSong settings sections) bpm beatsPerBar entries key) :
    resolve .binary64 config headers = .ok ({ settings with tempoChanges := changes }, []) := by
  have hmap := readIfPresent_tempoMap hentries hchanges (hget .tempoMap)
  obtain ⟨signature, hsignature, hkept⟩ := readIfPresent_signature hread (hget .timeSignature)
  have hinstruments : (((headers.get? .instruments).map (·.value)).map readNames).getD [] =
      settings.instruments := by
    rw [hget, Render.headerValue]
    by_cases hempty : settings.instruments = []
    · simp [Document.toSong, hempty]
    · simp [Document.toSong, hempty, readNames_intercalate hempty hread.instruments]
  have hversion : ((headers.get? .version).map (·.value)).getD defaultVersion = settings.version := by
    rw [hget, Render.headerValue]
    by_cases hdefault : settings.version = defaultVersion <;> simp [Document.toSong, hdefault]
  -- An override stands in place of the header, and the song has been read with the same override.
  have htempo : (((config.bpm.map (·.val)).or ((some settings.bpm).or (declaredBpm? changes))).getD
      config.defaultBpm.val).normalize = settings.bpm := by
    cases hconfig : config.bpm with
    | none => exact hobeys.normal
    | some tempo => exact (hobeys.bpm tempo hconfig).symm
  have hcount : ((config.beatsPerBar.map (·.val)).or
      ((((some (Number.int settings.beatsPerBar)).bind (·.whole?)).map Int.toNat).or
        (signature.map (·.2)))).getD config.defaultBeatsPerBar.val = settings.beatsPerBar := by
    cases hconfig : config.beatsPerBar with
    | none => rfl
    | some beats => exact (hobeys.beatsPerBar beats hconfig).symm
  unfold resolve
  simp only [hmap, hsignature, readIfPresent_of_value (hget .bpm) hbpm,
    readIfPresent_of_value (hget .beatsPerBar) hbeats, ok_bind, hinstruments, hversion, htempo, hcount,
    hkept]
  rw [hget, hget]
  rfl

end Settings

/-! ## The headers of a song -/

/-- Values of headers make one with commas between them. -/
theorem isHeaderValue_intercalate {texts : List String} (hne : texts ≠ [])
    (h : ∀ text ∈ texts, IsHeaderValue text.toList) :
    IsHeaderValue (", ".intercalate texts).toList := by
  have htexts : ∀ text ∈ texts.map String.toList, IsHeaderValue text := List.forall_mem_map.2 h
  rw [String.toList_intercalate]
  refine ⟨?_, Text.isStripped_intercalate fun text htext =>
    ⟨(htexts text htext).ne_nil, (htexts text htext).stripped⟩, fun hfeed => ?_⟩
  · obtain ⟨text, htext⟩ := List.exists_mem_of_ne_nil _ hne
    obtain ⟨c, hc⟩ := List.exists_mem_of_ne_nil _ (h text htext).ne_nil
    exact List.ne_nil_of_mem (Text.mem_intercalate_of_mem (List.mem_map_of_mem htext) hc)
  · rcases Text.mem_intercalate hfeed with hfeed | ⟨text, htext, hfeed⟩
    · exact absurd hfeed (by decide)
    · exact (htexts text htext).feed hfeed

namespace Render

variable {config : Config} {settings : Settings} {sections : List Section}

/-- An entry in the header of tempo changes can be the value of a header. -/
theorem IsEntryText.isHeaderValue {text : List Char} (h : IsEntryText text) : IsHeaderValue text :=
  ⟨h.1, Text.isStripped_of_bare fun c hc => (h.2 c hc).1, fun hfeed => (h.2 _ hfeed).2.2 rfl⟩

/-- What the headers of a song are written with are values of headers. -/
theorem isHeaderValue_headerValue {bpm beatsPerBar : String} {entries : List String}
    (hread : settings.IsRead) (hbpm : IsHeaderValue bpm.toList)
    (hbeats : IsHeaderValue beatsPerBar.toList) (hentries : ∀ w ∈ entries, IsEntryText w.toList)
    (key : HeaderKey) :
    ∀ text ∈ headerValue (Document.toSong settings sections) bpm beatsPerBar entries key,
      IsHeaderValue text.toList := by
  intro text htext
  cases key with
  | version =>
    obtain ⟨-, htext⟩ := Option.ite_none_left_eq_some.1 htext
    exact Option.some.inj htext ▸ hread.version
  | title => exact hread.title text htext
  | bpm => exact Option.some.inj htext ▸ hbpm
  | beatsPerBar => exact Option.some.inj htext ▸ hbeats
  | timeSignature => exact (hread.timeSignature text htext).1
  | musicalKey => exact hread.key text htext
  | instruments =>
    obtain ⟨hne, htext⟩ := Option.ite_none_left_eq_some.1 htext
    exact Option.some.inj htext ▸ isHeaderValue_intercalate (by simpa using hne) fun name hname =>
      (hread.instruments name hname).toIsHeaderValue
  | tempoMap =>
    obtain ⟨hne, htext⟩ := Option.ite_none_left_eq_some.1 htext
    exact Option.some.inj htext ▸ isHeaderValue_intercalate (by simpa using hne) fun w hw =>
      (hentries w hw).isHeaderValue

end Render

namespace Settings

variable {config : Config} {settings : Settings} {sections : List Section}

/-- Settings survive being written in headers. -/
structure Survives (settings : Settings) : Prop where
  /-- The tempo is not written next to a power of ten. -/
  bpm : settings.bpm.isScientific = false
  /-- The number of beats in a bar can be read as a real number. -/
  beatsPerBar : (settings.beatsPerBar : ℚ) < overflowAt
  /-- No number of a tempo change is written next to a power of ten. -/
  changes : ∀ segment ∈ settings.tempoChanges,
    segment.start.normalize.isScientific = false ∧ segment.bpm.normalize.isScientific = false

/-- A whole number from zero on that can be read as a real number is an amount. -/
theorem isAmount_int {n : ℕ} (h : (n : ℚ) < overflowAt) : (Number.int n).IsAmount := by
  refine ⟨rfl, ?_, n, by rfl, n.cast_nonneg⟩
  rwa [Number.IsKept, Int.cast_natCast, Nat.abs_cast]

/-- A segment in effect survives if the settings do. -/
theorem survives_of_mem_segments (hsound : settings.IsSound) (hobeys : settings.Obeys config)
    (hsurvives : settings.Survives) {segment : Segment Number}
    (h : segment.values ∈ (Document.toSong settings sections).segments) : segment.Survives := by
  have hmem (h : segment.values ∈ settings.tempoChanges.map Segment.values) :
      segment.Survives := by
    obtain ⟨change, hchange, heq⟩ := List.mem_map.1 h
    obtain rfl := Segment.values_injective heq
    obtain ⟨hstart, hbpm⟩ := hsound.changes change hchange
    obtain ⟨hstartPlain, hbpmPlain⟩ := hsurvives.changes change hchange
    exact ⟨⟨hstart, hbpm⟩, hstartPlain, hbpmPlain⟩
  -- A segment in effect is a tempo change, or the one that the tempo itself makes at the start.
  unfold Song.segments at h
  split at h
  · exact hmem h
  · rcases List.mem_cons.1 h with h | h
    · have hfirst : segment = ⟨.int 0, settings.bpm⟩ := Segment.values_injective h
      subst hfirst
      have hbpm := Number.isAmount_of_isTempo hsound.bpm hsound.kept
      exact ⟨⟨isAmount_int (by decide +kernel), hbpm⟩, rfl, by rw [hobeys.normal]; exact hsurvives.bpm⟩
    · exact hmem h

end Settings

namespace Render

variable {config : Config} {settings : Settings} {sections : List Section}

/-- The headers of a song that is read are lines with values, and settings that these are resolved to
are those of the song, with the segments in effect as tempo changes if the song has any. -/
theorem exists_headers (hread : settings.IsRead) (hsound : settings.IsSound)
    (hobeys : settings.Obeys config) (hsurvives : settings.Survives)
    {segments : List (Segment Number)}
    (hsegments : (Document.toSong settings sections).segments = segments.map Segment.values) :
    ∃ value : HeaderKey → Option String,
      headers (Document.toSong settings sections) = .ok (headerLines value headerOrder) ∧
      (∀ key, ∀ text ∈ value key, IsHeaderValue text.toList) ∧ (value .bpm).isSome = true ∧
      ∀ headers : Headers, (∀ key, (headers.get? key).map (·.value) = value key) →
        Settings.resolve .binary64 config headers =
          .ok ({ settings with
            tempoChanges :=
              if settings.tempoChanges = [] then [] else segments.map Segment.normalize }, []) := by
  -- Both numbers have a literal that their headers accept.
  have hpositive := Number.isPositive_of_isTempo hsound.bpm
  obtain ⟨bpm, hbpm, hbpmValue, hbpmRead⟩ :=
    Settings.exists_shown .bpm (Number.isAmount_of_isTempo hsound.bpm hsound.kept) hpositive
      hobeys.normal hsurvives.bpm (.inl rfl)
  have hcount : (Number.int settings.beatsPerBar).isPositive = true := by
    rw [Number.isPositive_iff (Number.toRat?_int _)]
    exact_mod_cast hsound.beatsPerBar
  obtain ⟨beats, hbeats, hbeatsValue, hbeatsRead⟩ :=
    Settings.exists_shown .beatsPerBar (Settings.isAmount_int hsurvives.beatsPerBar)
      hcount rfl rfl (.inr rfl)
  have hmem : ∀ segment ∈ segments, segment.Survives := fun segment hsegment =>
    Settings.survives_of_mem_segments hsound hobeys hsurvives
      (hsegments ▸ List.mem_map_of_mem hsegment)
  obtain ⟨entries, hmapM, htexts, hlength, hentries⟩ := exists_entries hmem
  rw [← hsegments] at hmapM
  -- Without tempo changes there is no header for them.
  by_cases hchanges : settings.tempoChanges = []
  · refine ⟨headerValue (Document.toSong settings sections) bpm beats [],
      headers_eq_ok hread.title hread.key (fun s hs => (hread.timeSignature s hs).1) hbpm hbeats
        (fun _ => rfl) (fun hne => absurd (by rw [Document.toSong, hchanges]; rfl) hne),
      isHeaderValue_headerValue hread hbpmValue hbeatsValue (List.forall_mem_nil _), rfl,
      fun headers hget => ?_⟩
    rw [if_pos hchanges]
    exact Settings.resolve_written hread hobeys hbpmRead hbeatsRead (List.forall_mem_nil _) rfl hget
  · have hne : entries ≠ [] := by
      rintro rfl
      rw [List.length_nil, eq_comm, List.length_eq_zero_iff] at hlength
      rw [hlength] at hsegments
      exact Song.segments_ne_nil _ hsegments
    refine ⟨headerValue (Document.toSong settings sections) bpm beats entries,
      headers_eq_ok hread.title hread.key (fun s hs => (hread.timeSignature s hs).1) hbpm hbeats
        (fun h => absurd (List.map_eq_nil_iff.1 h) hchanges) (fun _ => ⟨hne, hmapM⟩),
      isHeaderValue_headerValue hread hbpmValue hbeatsValue htexts, rfl, fun headers hget => ?_⟩
    rw [if_neg hchanges]
    exact Settings.resolve_written hread hobeys hbpmRead hbeatsRead htexts hentries hget

end Render

end CueSheet
