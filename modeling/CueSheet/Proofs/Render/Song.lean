import CueSheet.Proofs.Document.Errors
import CueSheet.Proofs.Document.Stumble
import CueSheet.Proofs.Render.Lines
import CueSheet.Proofs.Render.Settings
import CueSheet.Proofs.Text.Lines

/-!
# A written song is read back

A song is written as its header lines and the lines of its sections, joined by line feeds. The reader
finds these lines again (`Render.linesOf_unlines`), takes the headers in, resolves them to the settings
of the song and makes one section of each group of lines. So a song that survives is written, its text
can be read, nothing but warnings is reported on it, and what is read is the song again, but for the
places of its sections and items, the spelling of its tempo changes and the kind of the numbers of
stored times (`Render.exists_read`).
-/

namespace CueSheet

open Document (isContent startsSection numbered numberedLines groups headersFrom headersOf linesOf
  contentBefore startedGroups)

namespace Render

/-! ## Lines that are joined -/

/-- Texts without line feeds that are joined by line feeds are the lines of a document, if the first
of them starts with something else than a byte order mark. -/
theorem linesOf_unlines {first : String} {texts : List String}
    (hfirst : ∃ c ∈ first.toList.head?, c ≠ '\ufeff')
    (h : ∀ text ∈ first :: texts, '\n' ∉ text.toList) :
    linesOf ("\n".intercalate (first :: texts) ++ "\n").toList = kinds (first :: texts) := by
  obtain ⟨c, hc, hmark⟩ := hfirst
  have htext : ("\n".intercalate (first :: texts) ++ "\n").toList =
      ['\n'].intercalate ((first :: texts).map String.toList) ++ ['\n'] := by
    rw [String.toList_append, String.toList_intercalate]
    rfl
  have hhead : (['\n'].intercalate ((first :: texts).map String.toList) ++ ['\n']).head? = some c := by
    obtain ⟨rest, hsplit⟩ : ∃ rest, first.toList = c :: rest :=
      ⟨_, (List.eq_cons_of_mem_head? hc)⟩
    cases texts with
    | nil => simp [hsplit]
    | cons second others =>
      rw [List.map_cons, List.map_cons, List.intercalate_cons_cons, hsplit]
      rfl
  -- The first character is none of the marks that are dropped, so nothing is.
  have hmarks : Text.dropMarks (['\n'].intercalate ((first :: texts).map String.toList) ++ ['\n']) =
      ['\n'].intercalate ((first :: texts).map String.toList) ++ ['\n'] := by
    obtain ⟨rest, hsplit⟩ := List.head?_eq_some_iff.1 hhead
    rw [hsplit, Text.dropMarks, List.dropWhile_cons_of_neg (by simpa using hmark)]
  rw [htext, linesOf, hmarks, Text.lines_unlines (by simp) (List.forall_mem_map.2 h), List.map_map,
    List.map_map, kinds]
  refine List.map_congr_left fun text _ => ?_
  show Line.ofStripped (Text.strip (Text.dropReturn text.toList)) = _
  rw [Text.strip_dropReturn]
  rfl

/-! ## Header lines -/

section

variable {value : HeaderKey → Option String} {keys : List HeaderKey}

/-- What holds of each header line with a value holds of all header lines. -/
theorem of_mem_headerLines {P : String → Prop}
    (h : ∀ key ∈ keys, ∀ text ∈ value key, P (headerLine key text)) :
    ∀ line ∈ headerLines value keys, P line := by
  intro line hline
  obtain ⟨key, hkey, hline⟩ := List.mem_flatMap.1 hline
  obtain ⟨text, htext, rfl⟩ := Option.map_eq_some_iff.1 (Option.mem_toList.1 hline)
  exact h key hkey text htext

/-- A header line starts with the mark of headers. -/
theorem head?_headerLine (key : HeaderKey) (text : String) :
    (headerLine key text).toList.head? = some '@' := by
  simp [headerLine, toString]

/-- A header line is one line if its value is. -/
theorem feed_headerLine (key : HeaderKey) {text : String} (h : '\n' ∉ text.toList) :
    '\n' ∉ (headerLine key text).toList := by
  have hname : '\n' ∉ (headerName key).toList := by cases key <;> decide
  simp [headerLine, toString, hname, h]

/-- Header lines are read as headers. -/
theorem kinds_headerLines (hvalues : ∀ key, ∀ text ∈ value key, IsHeaderValue text.toList) :
    ∀ line ∈ kinds (headerLines value keys), ∃ name text, line = .header name text := by
  refine List.forall_mem_map.2 (of_mem_headerLines fun key _ text htext => ?_)
  obtain ⟨name, hline, -⟩ := ofText_headerLine key (hvalues key text htext)
  exact ⟨name, text, hline⟩

end

/-! ## Lines that are read -/

variable {config : Config} {settings : Settings} {sections : List Section}

/-- A line that says an item again can be read. -/
theorem SaysBack.not_lineStumbles {item : Item} {text : String} (hsound : settings.IsSound)
    (h : SaysBack settings.bpm settings.beatsPerBar item text) :
    ¬Document.LineStumbles settings (Line.ofText text.toList) := by
  rintro ⟨body, hline, hstumbles⟩
  obtain ⟨read, hsays, -⟩ := h.back 0
  rw [hline] at hsays
  cases hsays with
  | cue _ _ read hread =>
    refine not_fails_iff.2 ⟨read, hread⟩
      ((CueBody.fails_read_iff ?_ hsound.kept).2 hstumbles)
    exact Number.isPositive_of_isTempo hsound.bpm

/-- The lines of sections that say them again are each one line, and can be read. -/
theorem of_mem_sections {written : List (List String)}
    (hlabels : ∀ part ∈ sections, IsEnclosed '[' ']' part.label.toList) (hsound : settings.IsSound)
    (h : List.Forall₂ (SaysSectionBack settings.bpm settings.beatsPerBar) sections written) :
    ∀ line ∈ written.flatten,
      '\n' ∉ line.toList ∧ ¬Document.LineStumbles settings (Line.ofText line.toList) := by
  intro line hline
  obtain ⟨lines, hlines, hline⟩ := List.mem_flatten.1 hline
  obtain ⟨part, hpart, texts, rfl, hitems⟩ := exists_of_mem_right h hlines
  -- Only cues can stumble.
  have hstumbles {kind : Line} (hkind : ∀ body, kind ≠ .cue body) :
      ¬Document.LineStumbles settings kind := fun ⟨body, hcue, _⟩ => hkind body hcue
  rcases List.mem_cons.1 hline with rfl | hline
  · exact ⟨by decide, hstumbles nofun⟩
  rcases List.mem_cons.1 hline with rfl | hline
  · refine ⟨?_, ?_⟩
    · have hfeed := Line.feed_of_isEnclosed (hlabels part hpart)
      simpa [toString] using hfeed
    · rw [ofText_label (hlabels part hpart)]
      exact hstumbles nofun
  · obtain ⟨item, -, hback⟩ := exists_of_mem_right hitems hline
    exact ⟨hback.feed, hback.not_lineStumbles hsound⟩

/-! ## Documents that are written -/

section

variable {value : HeaderKey → Option String} {written : List (List String)} {bpm : Number}
  {beatsPerBar : ℕ}

/-- The lines of a written song are its header lines and the lines of its sections. -/
theorem linesOf_song (hvalues : ∀ key, ∀ text ∈ value key, IsHeaderValue text.toList)
    (hsome : (value .bpm).isSome = true) (hfeed : ∀ line ∈ written.flatten, '\n' ∉ line.toList) :
    linesOf ("\n".intercalate (headerLines value headerOrder ++ written.flatten) ++ "\n").toList =
      kinds (headerLines value headerOrder) ++ kinds written.flatten := by
  obtain ⟨text, htext⟩ := Option.isSome_iff_exists.1 hsome
  -- The tempo is always written, so the document starts with the mark of a header.
  have hne : headerLines value headerOrder ≠ [] := List.ne_nil_of_mem (List.mem_flatMap.2
    ⟨.bpm, by decide, Option.mem_toList.2 (Option.map_eq_some_iff.2 ⟨_, htext, rfl⟩)⟩)
  have hmarked : ∀ line ∈ headerLines value headerOrder, line.toList.head? = some '@' :=
    of_mem_headerLines fun key _ text _ => head?_headerLine key text
  have hheaders : ∀ line ∈ headerLines value headerOrder, '\n' ∉ line.toList :=
    of_mem_headerLines fun key _ text htext => feed_headerLine key (hvalues key text htext).feed
  obtain ⟨first, rest, hsplit⟩ := List.exists_cons_of_ne_nil hne
  have hfirst : ∃ c ∈ first.toList.head?, c ≠ '\ufeff' :=
    ⟨'@', hmarked first (by rw [hsplit]; exact List.mem_cons_self), by decide⟩
  have hall : ∀ line ∈ first :: (rest ++ written.flatten), '\n' ∉ line.toList := by
    rw [← List.cons_append, ← hsplit]
    exact List.forall_mem_append.2 ⟨hheaders, hfeed⟩
  have hlines := linesOf_unlines hfirst hall
  rw [← List.cons_append, ← hsplit] at hlines
  rw [hlines, kinds, List.map_append]
  rfl

/-- The headers of a written song have the values that they are written with. -/
theorem get?_song (hvalues : ∀ key, ∀ text ∈ value key, IsHeaderValue text.toList)
    (hlabels : ∀ part ∈ sections, IsEnclosed '[' ']' part.label.toList)
    (hback : List.Forall₂ (SaysSectionBack bpm beatsPerBar) sections written) (key : HeaderKey) :
    ((headersOf (numbered 1 (kinds (headerLines value headerOrder) ++ kinds written.flatten))).get?
      key).map (·.value) = value key := by
  have hmem : key ∈ headerOrder := by cases key <;> decide
  have hkeys : headerOrder.Nodup := by decide
  have hnew : ∀ key ∈ headerOrder, Headers.get? [] key = none := fun _ _ => rfl
  have hget := get?_written hvalues (headersFrom_sections hlabels hback) hkeys hnew 1 key
  rwa [if_pos hmem] at hget

/-- The groups of a written song say its sections again. -/
theorem groups_song (hvalues : ∀ key, ∀ text ∈ value key, IsHeaderValue text.toList)
    (hlabels : ∀ part ∈ sections, IsEnclosed '[' ']' part.label.toList)
    (hback : List.Forall₂ (SaysSectionBack bpm beatsPerBar) sections written) :
    List.Forall₂ (GroupSaysBack bpm beatsPerBar) sections
      (groups (numbered 1 (kinds (headerLines value headerOrder) ++ kinds written.flatten))) := by
  -- Headers are neither content nor starts of sections, so all groups are made behind them.
  have hother : ∀ line ∈ kinds (headerLines value headerOrder),
      isContent line = false ∧ startsSection line = false := by
    intro line hline
    obtain ⟨name, text, rfl⟩ := kinds_headerLines hvalues line hline
    exact ⟨rfl, rfl⟩
  obtain ⟨hempty, hgroups⟩ := groups_written hlabels hback
    (1 + ((kinds (headerLines value headerOrder)).length : Int))
  rw [Document.groups_append_other _ hother, groups, Document.leadingGroup?, hempty]
  exact hgroups

/-- The lines of a written song do not stumble if those of its sections do not. -/
theorem not_lineStumbles_song (hvalues : ∀ key, ∀ text ∈ value key, IsHeaderValue text.toList)
    (hsections : ∀ line ∈ written.flatten,
      ¬Document.LineStumbles settings (Line.ofText line.toList)) :
    ∀ line ∈ kinds (headerLines value headerOrder) ++ kinds written.flatten,
      ¬Document.LineStumbles settings line := by
  refine List.forall_mem_append.2 ⟨fun line hline => ?_, List.forall_mem_map.2 hsections⟩
  obtain ⟨name, text, rfl⟩ := kinds_headerLines hvalues line hline
  rintro ⟨body, hcue, -⟩
  cases hcue

/-- A group that says a section with items again has content. -/
theorem content_of_groupSaysBack {found : List Document.Group}
    (hitems : ∀ part ∈ sections, part.items ≠ [])
    (h : List.Forall₂ (GroupSaysBack bpm beatsPerBar) sections found) :
    (found.filter fun group => !group.content.isEmpty) = found := by
  refine List.filter_eq_self.2 fun group hgroup => ?_
  obtain ⟨part, hpart, hsays⟩ := exists_of_mem_right h hgroup
  rw [Bool.not_eq_true', List.isEmpty_eq_false_iff, ← List.length_pos_iff, ← hsays.items.length_eq,
    List.length_pos_iff]
  exact hitems part hpart

end

end Render

/-- A document whose headers are resolved without a report, and whose lines do not stumble, is read
with warnings at most, and its song has the settings of the headers. -/
theorem Document.exists_read_of_resolve (hconfig : config.IsKept) {text : List Char}
    (hresolve : Settings.resolve .binary64 config (headersOf (numberedLines text)) =
      .ok (settings, []))
    (hlines : ∀ line ∈ linesOf text, ¬LineStumbles settings line) :
    ∃ document, Document.read .binary64 config text = .ok document ∧
      AreWarnings document.diagnostics ∧
      document.song = Document.toSong settings document.song.sections := by
  have hstumbles : ¬Stumbles config text := by
    rintro (hheaders | ⟨settings', resolved, hsettings, line, hline, hstumbles⟩)
    · exact not_fails_iff.2 ⟨_, hresolve⟩ (Settings.fails_resolve_iff.2 hheaders)
    · obtain ⟨rfl, -⟩ := Prod.mk.inj (Except.ok.inj (hsettings.symm.trans hresolve))
      exact hlines line hline hstumbles
  obtain ⟨document, hread⟩ := not_fails_iff.1 ((fails_read_iff hconfig).not.2 hstumbles)
  obtain ⟨settings', resolved, hsettings, hsong⟩ := settings_of_read hread
  obtain ⟨rfl, -⟩ := Prod.mk.inj (Except.ok.inj (hsettings.symm.trans hresolve))
  refine ⟨document, hread, fun d hd => ?_, hsong⟩
  -- An error would be one that resolving the headers reports.
  obtain ⟨settings', resolved, hsettings, herrors⟩ := errorsAreOf_of_read hread
  obtain ⟨-, rfl⟩ := Prod.mk.inj (Except.ok.inj (hsettings.symm.trans hresolve))
  rw [← Bool.not_eq_true]
  exact fun herror => List.not_mem_nil (herrors d hd herror)

namespace Render

/-- A song that survives is written as a text that is read to the song again. -/
theorem exists_read (hconfig : config.IsKept) (hread : settings.IsRead) (hsound : settings.IsSound)
    (hobeys : settings.Obeys config) (hsurvives : settings.Survives)
    (hparts : ∀ part ∈ sections, part.IsRead)
    (haccepted : ∀ part ∈ sections, ∀ item ∈ part.items, item.IsAccepted)
    (hitems : ∀ part ∈ sections, ∀ item ∈ part.items, item.Survives)
    {segments : List (Segment Number)}
    (hsegments : (Document.toSong settings sections).segments = segments.map Segment.values) :
    ∃ written document, Render.song (Document.toSong settings sections) = .ok written ∧
      Document.read .binary64 config written.toList = .ok document ∧
      Document.AreWarnings document.diagnostics ∧
      document.song = Document.toSong { settings with
        tempoChanges := if settings.tempoChanges = [] then [] else segments.map Segment.normalize }
          document.song.sections ∧
      List.Forall₂ Section.ReadsBack sections document.song.sections := by
  have hlabels : ∀ part ∈ sections, IsEnclosed '[' ']' part.label.toList := fun part hpart =>
    (hparts part hpart).label
  have hbpm := Number.isPositive_of_isTempo hsound.bpm
  -- The song is written as header lines and the lines of its sections.
  obtain ⟨value, hheaders, hvalues, hsome, hresolve⟩ :=
    exists_headers hread hsound hobeys hsurvives hsegments
  obtain ⟨lines, hlines, hback⟩ := exists_mapM_of_forall (f := sectionLines)
    (R := SaysSectionBack settings.bpm settings.beatsPerBar) fun part hpart =>
      exists_saysSectionBack (hparts part hpart) (haccepted part hpart) (hitems part hpart) hbpm
  obtain ⟨text, htext⟩ : ∃ text, text =
      "\n".intercalate (headerLines value headerOrder ++ lines.flatten) ++ "\n" := ⟨_, rfl⟩
  have hwritten : Render.song (Document.toSong settings sections) = .ok text := by
    have hparts : (Document.toSong settings sections).sections.mapM sectionLines = .ok lines := hlines
    rw [Render.song, hheaders, ok_bind, hparts, ok_bind, htext]
    rfl
  -- The reader finds these lines again.
  have hsections := of_mem_sections hlabels hsound hback
  have hlinesOf : linesOf text.toList =
      kinds (headerLines value headerOrder) ++ kinds lines.flatten := by
    rw [htext, linesOf_song hvalues hsome fun line hline => (hsections line hline).1]
  have hgroups := groups_song hvalues hlabels hback
  have hget := get?_song hvalues hlabels hback
  rw [← hlinesOf, ← numberedLines] at hgroups hget
  obtain ⟨document, hdocument, hwarnings, hsong⟩ :=
    Document.exists_read_of_resolve hconfig (hresolve _ hget) (hlinesOf ▸
      not_lineStumbles_song hvalues fun line hline => (hsections line hline).2)
  have hholds := Document.holds_of_read hdocument
  rw [content_of_groupSaysBack (fun part hpart => (hparts part hpart).ne_nil) hgroups, hsong]
    at hholds
  exact ⟨text, document, hwritten, hdocument, hwarnings, hsong, readsBack_of_holds hgroups hholds⟩

end Render

end CueSheet
