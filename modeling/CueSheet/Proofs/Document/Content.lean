import CueSheet.Proofs.Cue.Accepted
import CueSheet.Proofs.Document.Sound
import CueSheet.Proofs.Header.Values
import CueSheet.Proofs.Text.Lines

/-!
# What a song that is read holds

The lines of a document are well-formed, whatever stands in it, and a song holds what its lines say.
So the texts of a song that is read are of the kinds that its lines ask for (`isRead_of_read`): labels
and performance directions can stand between their marks, lyrics stand on one line, cues are ones that
a body can say, and the texts of the header fields are values of headers.
-/

namespace CueSheet

/-- An item is one that a line can say. -/
def Item.IsRead : Item → Prop
  | .performance text _ => IsEnclosed '(' ')' text.toList
  | .lyric text _ => '\n' ∉ text.toList
  | .cue c _ => c.IsRead
  | .raw _ => False

/-- A section is one that lines can say. -/
structure Section.IsRead (part : Section) : Prop where
  /-- The label can stand between its marks. -/
  label : IsEnclosed '[' ']' part.label.toList
  /-- There are items. -/
  ne_nil : part.items ≠ []
  /-- The items are ones that lines can say. -/
  items : ∀ item ∈ part.items, item.IsRead

namespace Document

variable {config : Config} {text : List Char} {document : Document}

/-- The lines of a text are well-formed. -/
theorem isWellFormed_of_mem_linesOf {line : Line} (h : line ∈ linesOf text) : line.IsWellFormed := by
  obtain ⟨chars, hchars, rfl⟩ := List.mem_map.1 h
  exact Line.isWellFormed_ofText (Text.not_mem_of_mem_lines hchars)

/-- A line that is numbered is one of the lines. -/
theorem mem_of_mem_numbered {first : Int} {lines : List Line} {line : NumberedLine}
    (h : line ∈ numbered first lines) : line.2 ∈ lines := by
  induction lines generalizing first with
  | nil => cases h
  | cons head lines ih =>
    rcases List.mem_cons.1 h with rfl | h
    · exact List.mem_cons_self
    · exact List.mem_cons_of_mem _ (ih h)

/-! ## Headers -/

/-- A well-formed line gives headers with values. -/
theorem isHeaderValue_of_takeIn {headers : Headers} {line : NumberedLine}
    (hheaders : ∀ header ∈ headers, IsHeaderValue header.value.toList)
    (hline : line.2.IsWellFormed) :
    ∀ header ∈ takeIn headers line, IsHeaderValue header.value.toList := by
  obtain ⟨number, line⟩ := line
  cases line with
  | header key value =>
    unfold takeIn Headers.add
    dsimp only
    split
    · exact hheaders
    · split
      · exact hheaders
      · exact List.forall_mem_append.2 ⟨hheaders, List.forall_mem_singleton.2 hline⟩
  | blank | sectionStart | performanceLyric | performance | cue | lyric => exact hheaders

/-- Well-formed lines that are taken in one after the other give headers with values. -/
theorem isHeaderValue_of_foldl_takeIn {lines : List NumberedLine} {headers : Headers}
    (hlines : ∀ line ∈ lines, line.2.IsWellFormed)
    (hheaders : ∀ header ∈ headers, IsHeaderValue header.value.toList) :
    ∀ header ∈ lines.foldl takeIn headers, IsHeaderValue header.value.toList := by
  induction lines generalizing headers with
  | nil => exact hheaders
  | cons line lines ih =>
    rw [List.forall_mem_cons] at hlines
    exact ih hlines.2 (isHeaderValue_of_takeIn hheaders hlines.1)

/-- The headers of well-formed lines have values. -/
theorem isHeaderValue_of_mem_headersOf {lines : List NumberedLine}
    (hlines : ∀ line ∈ lines, line.2.IsWellFormed) :
    ∀ header ∈ headersOf lines, IsHeaderValue header.value.toList :=
  isHeaderValue_of_foldl_takeIn
    (fun line hline => hlines line ((List.takeWhile_sublist _).subset hline)) nofun

/-! ## Sections -/

/-- The label of a section that starts without one can stand between its marks. -/
theorem isEnclosed_implicitLabel : IsEnclosed '[' ']' implicitLabel.toList := by
  refine ⟨⟨?_, 'I', by decide, by decide⟩, by decide⟩
  have hmarks : (implicitLabel.toList.all fun c => c != '[' && c != ']') = true := by decide
  simpa using hmarks

/-- The content in front of a start of a section is among the lines. -/
theorem contentBefore_subset (lines : List NumberedLine) : contentBefore lines ⊆ lines :=
  fun _ h => (List.takeWhile_sublist _).subset (List.mem_filter.1 h).1

/-- The label of a group that well-formed lines start can stand between its marks, and its content is
among the lines. -/
theorem of_mem_startedGroups {lines : List NumberedLine}
    (hlines : ∀ line ∈ lines, line.2.IsWellFormed) {group : Group} (h : group ∈ startedGroups lines) :
    IsEnclosed '[' ']' group.label.toList ∧ group.content ⊆ lines := by
  induction lines with
  | nil => cases h
  | cons line lines ih =>
    rw [List.forall_mem_cons] at hlines
    obtain ⟨number, line⟩ := line
    by_cases hstart : startsSection line = true
    · cases line with
      | sectionStart label =>
        rcases List.mem_cons.1 h with rfl | h
        · exact ⟨hlines.1, List.Subset.trans (contentBefore_subset lines) (List.subset_cons_self _ _)⟩
        · obtain ⟨hlabel, hcontent⟩ := ih hlines.2 h
          exact ⟨hlabel, List.Subset.trans hcontent (List.subset_cons_self _ _)⟩
      | blank | header | performanceLyric | performance | cue | lyric => cases hstart
    · rw [startedGroups_cons_other _ (by simpa using hstart)] at h
      obtain ⟨hlabel, hcontent⟩ := ih hlines.2 h
      exact ⟨hlabel, List.Subset.trans hcontent (List.subset_cons_self _ _)⟩

/-- The label of a group of well-formed lines can stand between its marks, and its content is among
the lines. -/
theorem of_mem_groups {lines : List NumberedLine} (hlines : ∀ line ∈ lines, line.2.IsWellFormed)
    {group : Group} (h : group ∈ groups lines) :
    IsEnclosed '[' ']' group.label.toList ∧ group.content ⊆ lines := by
  rcases List.mem_append.1 h with h | h
  · obtain ⟨first, -, rfl⟩ := Option.map_eq_some_iff.1 (Option.mem_toList.1 h)
    exact ⟨isEnclosed_implicitLabel, contentBefore_subset lines⟩
  · exact of_mem_startedGroups hlines h

/-- What a well-formed line says is what a line can say. -/
theorem Says.isRead {bpm : Number} {beatsPerBar : ℕ} {line : NumberedLine} {items : List Item}
    (hline : line.2.IsWellFormed)
    (h : Says .binary64 (.number bpm) (.int beatsPerBar) line items) :
    ∀ item ∈ items, item.IsRead := by
  cases h with
  | performanceLyric number text lyric =>
    exact List.forall_mem_cons.2 ⟨hline.1, List.forall_mem_singleton.2 hline.2⟩
  | performance number text => exact List.forall_mem_singleton.2 hline
  | lyric number text malformed => exact List.forall_mem_singleton.2 hline
  | cue number body read hread =>
    intro item hitem
    obtain rfl := List.mem_singleton.1 hitem
    exact Cue.isRead_of_read hline hread

/-- The sections of a song that is read are ones that lines can say. -/
theorem sections_isRead (hconfig : config.IsKept)
    (h : read .binary64 config text = .ok document) :
    ∀ part ∈ document.song.sections, part.IsRead := by
  have hlines : ∀ line ∈ numberedLines text, line.2.IsWellFormed := fun line hline =>
    isWellFormed_of_mem_linesOf (mem_of_mem_numbered hline)
  have hholds := holds_of_read h
  have hsound := isSound_of_read hconfig h
  obtain ⟨bpm, hbpm, -⟩ := hsound.bpm
  obtain ⟨beats, hbeats, -⟩ := hsound.beatsPerBar
  rw [hbpm, hbeats] at hholds
  have hitems : ∀ part ∈ document.song.sections, ∀ item ∈ part.items, item.IsRead := by
    refine items_of_holds (fun group hgroup line hline items hsays => ?_) hholds
    have hgroup := (of_mem_groups hlines (List.mem_filter.1 hgroup).1).2
    exact hsays.isRead (hlines line (hgroup hline))
  intro part hpart
  obtain ⟨group, hgroup, hpartHolds⟩ := exists_of_mem_right hholds hpart
  obtain ⟨hmem, hcontent⟩ := List.mem_filter.1 hgroup
  obtain ⟨said, hsaid, hpartItems⟩ := hpartHolds.items
  refine ⟨?_, ?_, hitems part hpart⟩
  · rw [hpartHolds.label]
    exact (of_mem_groups hlines hmem).1
  · rw [hpartItems, ne_eq, flatten_eq_nil_iff hsaid]
    simpa using hcontent

/-- The settings that the headers of a document are resolved to have texts that headers give. -/
theorem isRead_of_resolve {settings : Settings} {resolved : List Diagnostic}
    (h : Settings.resolve .binary64 config (headersOf (numberedLines text)) =
      .ok (settings, resolved)) : settings.IsRead :=
  Settings.isRead_of_resolve (isHeaderValue_of_mem_headersOf fun _ hline =>
    isWellFormed_of_mem_linesOf (mem_of_mem_numbered hline)) h

end Document

end CueSheet
