import CueSheet.Proofs.Document.Content
import CueSheet.Proofs.Render.Cue

/-!
# Written sections are read back

An item that survives is written as one line, and that line says the item again (`SaysBack`). A
section is written as a blank line, the line that starts it and the lines of its items. So the lines
of written sections fall into one group for each section, in order, with the label of the section and
lines that say its items (`groups_written`), and a section that holds what such a group says is the
section again, but for its place and the kind of the numbers of stored times.
-/

namespace CueSheet

open Document (NumberedLine Group Says isContent startsSection numbered contentBefore startedGroups
  groups)

/-- An item that is read is another one, but for its line and the kind of the numbers of stored
times. -/
def Item.ReadsBack : Item → Item → Prop
  | .performance text _, .performance read _ => read = text
  | .lyric text _, .lyric read _ => read = text
  | .cue c _, .cue read _ => c.ReadsBack read
  | _, _ => False

/-- An item is accepted if it is no cue, or a cue that the validator accepts. -/
def Item.IsAccepted : Item → Prop
  | .cue c _ => c.IsAccepted
  | .performance .. | .lyric .. | .raw _ => True

/-- A section that is read is another one, but for its place and its items' lines. -/
structure Section.ReadsBack (part read : Section) : Prop where
  /-- The label is the same. -/
  label : read.label = part.label
  /-- The items are read back in order. -/
  items : List.Forall₂ Item.ReadsBack part.items read.items

/-- A line says one thing. -/
theorem Document.Says.unique {ρ : Rounding} {bpm beatsPerBar : Value} {line : NumberedLine}
    {items others : List Item} (h : Says ρ bpm beatsPerBar line items)
    (h' : Says ρ bpm beatsPerBar line others) : others = items := by
  cases h with
  | cue number body read hread =>
    cases h' with
    | cue _ _ read' hread' =>
      obtain rfl := Except.ok.inj (hread'.symm.trans hread)
      rfl
  | performanceLyric | performance | lyric =>
    cases h'
    rfl

namespace Render

variable {bpm : Number} {beatsPerBar : ℕ} {item : Item} {part : Section}

/-- A line says an item again, and nothing else. -/
def LineSaysBack (bpm : Number) (beatsPerBar : ℕ) (item : Item) (line : NumberedLine) : Prop :=
  ∃ read, Says .binary64 (.number bpm) (.int beatsPerBar) line [read] ∧ item.ReadsBack read

/-- A text is a line that says an item again wherever it stands. -/
structure SaysBack (bpm : Number) (beatsPerBar : ℕ) (item : Item) (text : String) : Prop where
  /-- It is one line. -/
  feed : '\n' ∉ text.toList
  /-- It has content. -/
  content : isContent (Line.ofText text.toList) = true
  /-- It says the item again. -/
  back : ∀ number, LineSaysBack bpm beatsPerBar item (number, Line.ofText text.toList)

/-- A performance direction that can stand in a document is written as a line that says it again. -/
theorem saysBack_performance {text : String} (h : IsEnclosed '(' ')' text.toList) (line : Int) :
    SaysBack bpm beatsPerBar (.performance text line) s!"({text})" := by
  have htext : s!"({text})".toList = '(' :: (text.toList ++ [')']) := by simp [toString]
  have hline : Line.ofText s!"({text})".toList = .performance text := by
    rw [htext, Line.ofText_performance h, String.ofList_toList]
  refine ⟨?_, ?_, fun number => ⟨.performance text number, ?_, rfl⟩⟩
  · simpa [htext] using Line.feed_of_isEnclosed h
  · rw [hline]
    rfl
  · rw [hline]
    exact .performance number text

/-- A body between angle brackets is a line that says the cue again that is read from the body. -/
theorem saysBack_cue {body : List Char} {read : CueBody} {c : Cue} (hbody : IsBody body)
    (hread : CueBody.read .binary64 (.number bpm) (.int beatsPerBar) body = .ok read)
    (hback : c.ReadsBack read.cue) (line : Int) :
    SaysBack bpm beatsPerBar (.cue c line) (String.ofList ('<' :: (body ++ ['>']))) := by
  have hfeed : '\n' ∉ body := fun hmem => (hbody.chars _ hmem).2.2 rfl
  refine ⟨?_, ?_, fun number => ⟨.cue read.cue number, ?_, hback⟩⟩
  · rw [String.toList_ofList]
    simpa using hfeed
  · rw [String.toList_ofList, hbody.ofText_line]
    rfl
  · rw [String.toList_ofList, hbody.ofText_line]
    exact .cue number body read hread

/-- An item that survives is written as a line that says it again. -/
theorem exists_saysBack (hread : item.IsRead) (haccepted : item.IsAccepted)
    (hsurvives : item.Survives) (hbpm : bpm.isPositive = true) :
    ∃ text, Render.item item = .ok [text] ∧ SaysBack bpm beatsPerBar item text := by
  cases item with
  | performance text line => exact ⟨_, rfl, saysBack_performance hread line⟩
  | lyric text line =>
    obtain ⟨malformed, hline⟩ := hsurvives
    refine ⟨text, rfl, hread, ?_, fun number => ⟨.lyric text number, ?_, rfl⟩⟩
    · rw [hline]
      rfl
    · rw [hline]
      exact .lyric number text malformed
  | cue c line =>
    obtain ⟨body, read, hcue, hbody, hbodyRead, hback⟩ :=
      read_cue (Value.int beatsPerBar) haccepted hsurvives hbpm
    refine ⟨_, ?_, saysBack_cue hbody hbodyRead hback line⟩
    rw [Render.item, hcue]
    rfl
  | raw => exact hread.elim

/-! ## Sections -/

/-- The kinds of lines. -/
def kinds (texts : List String) : List Line := texts.map fun text => Line.ofText text.toList

/-- Lines say a section again: a blank line, the line that starts it and the lines of its items. -/
def SaysSectionBack (bpm : Number) (beatsPerBar : ℕ) (part : Section) (lines : List String) : Prop :=
  ∃ texts, lines = "" :: s!"[{part.label}]" :: texts ∧
    List.Forall₂ (SaysBack bpm beatsPerBar) part.items texts

/-- A section that survives is written as lines that say it again. -/
theorem exists_saysSectionBack (hread : part.IsRead) (haccepted : ∀ item ∈ part.items, item.IsAccepted)
    (hsurvives : ∀ item ∈ part.items, item.Survives) (hbpm : bpm.isPositive = true) :
    ∃ lines, sectionLines part = .ok lines ∧ SaysSectionBack bpm beatsPerBar part lines := by
  obtain ⟨lines, hlines, hbacks⟩ := exists_mapM_of_forall (f := Render.item)
    (R := fun item lines => ∃ text, lines = [text] ∧ SaysBack bpm beatsPerBar item text)
    fun item hitem => by
      obtain ⟨text, htext, hback⟩ := exists_saysBack (hread.items item hitem) (haccepted item hitem)
        (hsurvives item hitem) hbpm
      exact ⟨[text], htext, text, rfl, hback⟩
  refine ⟨_, ?_, lines.flatten, rfl, forall₂_flatten hbacks⟩
  rw [sectionLines, hlines]
  rfl

/-- A group of lines says a section again. -/
structure GroupSaysBack (bpm : Number) (beatsPerBar : ℕ) (part : Section) (group : Group) :
    Prop where
  /-- The label is the same. -/
  label : group.label = part.label
  /-- The content says the items again, one on each line. -/
  items : List.Forall₂ (LineSaysBack bpm beatsPerBar) part.items group.content

/-- The line that starts a section is read as one. -/
theorem ofText_label (h : IsEnclosed '[' ']' part.label.toList) :
    Line.ofText s!"[{part.label}]".toList = .sectionStart part.label := by
  have htext : s!"[{part.label}]".toList = '[' :: (part.label.toList ++ [']']) := by simp [toString]
  rw [htext, Line.ofText_sectionStart h, String.ofList_toList]

/-- Lines of items are content, and behind them the lines go on. -/
theorem items_written {items : List Item} {texts : List String} (rest : List Line)
    (h : List.Forall₂ (SaysBack bpm beatsPerBar) items texts) (number : Int) :
    ∃ content, List.Forall₂ (LineSaysBack bpm beatsPerBar) items content ∧
      contentBefore (numbered number (kinds texts ++ rest)) =
        content ++ contentBefore (numbered (number + texts.length) rest) ∧
      startedGroups (numbered number (kinds texts ++ rest)) =
        startedGroups (numbered (number + texts.length) rest) := by
  induction h generalizing number with
  | nil => exact ⟨[], .nil, by simp [kinds], by simp [kinds]⟩
  | @cons item text items texts hfirst _ ih =>
    -- Each item takes one line, so the numbers behind the items are shifted by their count.
    obtain ⟨content, hcontent, hbefore, hstarted⟩ := ih (number + 1)
    have hnext : number + 1 + (texts.length : Int) = number + ((text :: texts).length : Int) := by
      rw [List.length_cons]
      push_cast
      ring
    refine ⟨(number, Line.ofText text.toList) :: content, .cons (hfirst.back number) hcontent, ?_, ?_⟩
    · rw [kinds, List.map_cons, List.cons_append, numbered,
        Document.contentBefore_cons_content _ hfirst.content, ← kinds, hbefore, hnext]
      rfl
    · rw [kinds, List.map_cons, List.cons_append, numbered, Document.startedGroups_cons_other _
        (Document.startsSection_of_isContent hfirst.content), ← kinds, hstarted, hnext]

/-- The kinds of the lines of a section with other lines behind them. -/
theorem kinds_section (h : IsEnclosed '[' ']' part.label.toList) (texts : List String)
    (written : List (List String)) :
    kinds (("" :: s!"[{part.label}]" :: texts) :: written).flatten =
      .blank :: .sectionStart part.label :: (kinds texts ++ kinds written.flatten) := by
  rw [← ofText_label h]
  simp only [kinds, List.flatten_cons, List.cons_append, List.map_cons, List.map_append]
  rfl

/-- Lines of sections have no headers in front of the first section. -/
theorem headersFrom_sections {sections : List Section} {written : List (List String)}
    (hlabels : ∀ part ∈ sections, IsEnclosed '[' ']' part.label.toList)
    (h : List.Forall₂ (SaysSectionBack bpm beatsPerBar) sections written) (headers : Headers)
    (number : Int) :
    Document.headersFrom headers (numbered number (kinds written.flatten)) = headers := by
  cases h with
  | nil => rfl
  | cons hfirst _ =>
    rw [List.forall_mem_cons] at hlabels
    obtain ⟨texts, rfl, -⟩ := hfirst
    rw [kinds_section hlabels.1, numbered, Document.headersFrom_cons_other headers _ rfl rfl, numbered,
      Document.headersFrom_cons_sectionStart _ _ rfl]
    rfl

/-- The lines of sections fall into one group for each section, and nothing stands in front of the
first. The induction is on the sections, each of which starts with a blank line. -/
theorem groups_written {sections : List Section} {written : List (List String)}
    (hlabels : ∀ part ∈ sections, IsEnclosed '[' ']' part.label.toList)
    (h : List.Forall₂ (SaysSectionBack bpm beatsPerBar) sections written) (number : Int) :
    contentBefore (numbered number (kinds written.flatten)) = [] ∧
      List.Forall₂ (GroupSaysBack bpm beatsPerBar) sections
        (startedGroups (numbered number (kinds written.flatten))) := by
  induction h generalizing number with
  | nil => exact ⟨rfl, .nil⟩
  | @cons part lines sections written hfirst _ ih =>
    rw [List.forall_mem_cons] at hlabels
    obtain ⟨texts, rfl, hitems⟩ := hfirst
    obtain ⟨content, hcontent, hbefore, hstarted⟩ :=
      items_written (kinds written.flatten) hitems (number + 1 + 1)
    -- The next section starts with a blank line, so the content of this one ends there.
    obtain ⟨hempty, hgroups⟩ := ih hlabels.2 (number + 1 + 1 + texts.length)
    rw [hempty, List.append_nil] at hbefore
    rw [kinds_section hlabels.1, numbered, numbered]
    refine ⟨?_, ?_⟩
    · rw [Document.contentBefore_cons_other _ rfl rfl, Document.contentBefore_cons_sectionStart]
    · rw [Document.startedGroups_cons_other _ rfl, startedGroups, hbefore, hstarted]
      exact .cons ⟨rfl, hcontent⟩ hgroups

/-- What lines say that say items again are the items again. -/
theorem readsBack_flatten {items : List Item} {content : List NumberedLine} {said : List (List Item)}
    (h : List.Forall₂ (LineSaysBack bpm beatsPerBar) items content)
    (hsaid : List.Forall₂ (Says .binary64 (.number bpm) (.int beatsPerBar)) content said) :
    List.Forall₂ Item.ReadsBack items said.flatten := by
  induction h generalizing said with
  | nil =>
    cases hsaid
    exact .nil
  | cons hfirst _ ih =>
    cases hsaid with
    | cons hsays hrest =>
      -- A line says one thing, so what is said is what the line was written to say.
      obtain ⟨read, hread, hback⟩ := hfirst
      rw [hread.unique hsays, List.flatten_cons, List.singleton_append]
      exact .cons hback (ih hrest)

/-- Sections that hold what groups say that say sections again are the sections again. -/
theorem readsBack_of_holds {sections reads : List Section} {found : List Group}
    (hgroups : List.Forall₂ (GroupSaysBack bpm beatsPerBar) sections found)
    (hholds : List.Forall₂ (Document.Holds .binary64 (.number bpm) (.int beatsPerBar)) found reads) :
    List.Forall₂ Section.ReadsBack sections reads := by
  induction hgroups generalizing reads with
  | nil =>
    cases hholds
    exact .nil
  | cons hfirst _ ih =>
    cases hholds with
    | cons hpart hrest =>
      obtain ⟨said, hsaid, hitems⟩ := hpart.items
      refine .cons ⟨hpart.label.trans hfirst.label, ?_⟩ (ih hrest)
      rw [hitems]
      exact readsBack_flatten hfirst.items hsaid

end Render

end CueSheet
