import Mathlib.Data.List.Forall2
import CueSheet.Proofs.Document.Lines
import CueSheet.Proofs.Except

/-!
# Groups of lines

The lines of a document fall into groups: each start of a section opens one, and the lines with
content before the first start of a section make one more if there are any. What a line with content
says (`Says`) and what it takes for a section to hold a group (`Holds`) is told without the reader.
-/

namespace CueSheet.Document

/-- Lines of a document that belong into one section. -/
structure Group where
  /-- The label of the section. -/
  label : String
  /-- The line on which the section starts. -/
  line : Int
  /-- The lines with content. -/
  content : List NumberedLine

/-- The lines with content up to the next start of a section. -/
def contentBefore (lines : List NumberedLine) : List NumberedLine :=
  (lines.takeWhile fun line => !startsSection line.2).filter fun line => isContent line.2

/-- The groups that are opened by a start of a section. -/
def startedGroups : List NumberedLine → List Group
  | [] => []
  | (number, .sectionStart label) :: lines =>
    ⟨label, number, contentBefore lines⟩ :: startedGroups lines
  | _ :: lines => startedGroups lines

/-- The group of the lines with content before the first start of a section, if there are any. -/
def leadingGroup? (lines : List NumberedLine) : Option Group :=
  (contentBefore lines).head?.map fun first => ⟨implicitLabel, first.1, contentBefore lines⟩

/-- The groups of lines in order. -/
def groups (lines : List NumberedLine) : List Group :=
  (leadingGroup? lines).toList ++ startedGroups lines

/-- The items that a line with content says at a tempo and a number of beats in a bar. -/
inductive Says (ρ : Rounding) (bpm beatsPerBar : Value) : NumberedLine → List Item → Prop where
  /-- A direction with a lyric says both, the direction first. -/
  | performanceLyric (number : Int) (text lyric : String) :
    Says ρ bpm beatsPerBar (number, .performanceLyric text lyric)
      [.performance text number, .lyric lyric number]
  /-- A direction says itself. -/
  | performance (number : Int) (text : String) :
    Says ρ bpm beatsPerBar (number, .performance text) [.performance text number]
  /-- A lyric says itself, malformed or not. -/
  | lyric (number : Int) (text : String) (malformed : Option Marker) :
    Says ρ bpm beatsPerBar (number, .lyric text malformed) [.lyric text number]
  /-- A cue says what its body is read as. -/
  | cue (number : Int) (body : List Char) (read : CueBody)
    (h : CueBody.read ρ bpm beatsPerBar body = .ok read) :
    Says ρ bpm beatsPerBar (number, .cue body) [.cue read.cue number]

/-- A section holds the items that the lines of a group say, line after line. -/
structure Holds (ρ : Rounding) (bpm beatsPerBar : Value) (group : Group) (part : Section) :
    Prop where
  /-- The label is that of the group. -/
  label : part.label = group.label
  /-- The section starts where the group does. -/
  line : part.line = group.line
  /-- The items are those of the lines in order. -/
  items : ∃ said, List.Forall₂ (Says ρ bpm beatsPerBar) group.content said ∧
    part.items = said.flatten

/-! ## What the parts of a line say -/

/-- A line with content is the first of the content in front of it. -/
theorem contentBefore_cons_content {number : Int} {line : Line} (lines : List NumberedLine)
    (h : isContent line = true) :
    contentBefore ((number, line) :: lines) = (number, line) :: contentBefore lines := by
  cases line <;> simp_all [contentBefore, isContent, startsSection]

/-- A start of a section ends the content in front of it. -/
theorem contentBefore_cons_sectionStart (number : Int) (label : String)
    (lines : List NumberedLine) : contentBefore ((number, .sectionStart label) :: lines) = [] := by
  simp [contentBefore, startsSection]

/-- A blank line or a header is passed over. -/
theorem contentBefore_cons_other {number : Int} {line : Line} (lines : List NumberedLine)
    (hcontent : isContent line = false) (hstart : startsSection line = false) :
    contentBefore ((number, line) :: lines) = contentBefore lines := by
  simp [contentBefore, hcontent, hstart]

/-- Only a start of a section opens a group. -/
theorem startedGroups_cons_other {number : Int} {line : Line} (lines : List NumberedLine)
    (h : startsSection line = false) :
    startedGroups ((number, line) :: lines) = startedGroups lines := by
  cases line <;> simp_all [startedGroups, startsSection]

/-- Lines without content that start no section change nothing about the groups behind them. -/
theorem groups_append_other {front : List Line} (rest : List Line)
    (h : ∀ line ∈ front, isContent line = false ∧ startsSection line = false) (number : Int) :
    groups (numbered number (front ++ rest)) =
      groups (numbered (number + front.length) rest) := by
  induction front generalizing number with
  | nil => simp
  | cons line front ih =>
    rw [List.forall_mem_cons] at h
    obtain ⟨⟨hcontent, hstart⟩, hrest⟩ := h
    have hfirst : groups ((number, line) :: numbered (number + 1) (front ++ rest)) =
        groups (numbered (number + 1) (front ++ rest)) := by
      simp only [groups, leadingGroup?, contentBefore_cons_other _ hcontent hstart,
        startedGroups_cons_other _ hstart]
    rw [List.cons_append, numbered, hfirst, ih hrest, List.length_cons]
    congr 2
    omega

/-- A line with content says at least one item. -/
theorem Says.ne_nil {ρ : Rounding} {bpm beatsPerBar : Value} {line : NumberedLine}
    {items : List Item} (h : Says ρ bpm beatsPerBar line items) : items ≠ [] := by
  cases h <;> simp

/-- The items of a group are missing exactly if its content is. -/
theorem flatten_eq_nil_iff {ρ : Rounding} {bpm beatsPerBar : Value} {content : List NumberedLine}
    {said : List (List Item)} (h : List.Forall₂ (Says ρ bpm beatsPerBar) content said) :
    said.flatten = [] ↔ content = [] := by
  cases h with
  | nil => simp
  | cons hline hrest => simp [hline.ne_nil]

/-- The items that the reader finds on a line with content are those that the line says. -/
theorem says_of_lineItems {ρ : Rounding} {settings : Settings} {number : Int} {line : Line}
    {items : List Item} {problems : List Problem}
    (hcontent : isContent line = true)
    (h : lineItems ρ settings number line = .ok (items, problems)) :
    Says ρ settings.bpm (.int settings.beatsPerBar) (number, line) items := by
  cases line with
  | blank | header | sectionStart => simp [isContent] at hcontent
  | performanceLyric text lyric =>
    obtain ⟨rfl, -⟩ := Prod.mk.inj (Except.ok.inj h)
    exact .performanceLyric number text lyric
  | performance text =>
    obtain ⟨rfl, -⟩ := Prod.mk.inj (Except.ok.inj h)
    exact .performance number text
  | lyric text malformed =>
    obtain ⟨rfl, -⟩ := Prod.mk.inj (Except.ok.inj h)
    exact .lyric number text malformed
  | cue body =>
    obtain ⟨read, hread, hitems⟩ := bind_eq_ok.1 h
    obtain ⟨rfl, -⟩ := Prod.mk.inj (Except.ok.inj hitems)
    exact .cue number body read hread

end CueSheet.Document
