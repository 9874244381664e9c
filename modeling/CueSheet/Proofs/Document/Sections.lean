import CueSheet.Proofs.Document.EmptySection
import CueSheet.Proofs.Document.Group
import CueSheet.Proofs.SectionId

/-!
# The sections of a document are its groups of lines

`sections_of_read` says that the sections of the song are exactly the groups that hold content, with
the items that their lines say, and that each group without content is reported once and nothing
else is reported as empty.

The reader keeps one section open. What it makes of the lines from there on is the closing of a list
of open sections one after the other (`ClosesAs`), of which the first continues the section that is
open now. The induction over the lines is for that statement (`closesAs_of_run`); the heading only
moves up to the first line that is neither blank nor a header.
-/

namespace CueSheet.Document

/-- The report of a group without content. -/
def Group.report (group : Group) : Diagnostic :=
  .onLine group.line (.emptySection group.label)

/-! ## Closing sections one after the other -/

/-- Closes open sections in order behind the closed ones. -/
def closeAll (closed : List Section) : List OpenSection → List Section × List Diagnostic
  | [] => (closed, [])
  | current :: rest =>
    let first := close closed current
    let others := closeAll first.1 rest
    (others.1, first.2 ++ others.2)

/-- A section is an open section under an identifier. -/
structure Closes (current : OpenSection) (part : Section) : Prop where
  /-- The label is kept. -/
  label : part.label = current.label
  /-- The line is kept. -/
  line : part.line = current.line
  /-- The items are kept. -/
  items : part.items = current.items

/-- The open sections with items become sections, in order. -/
theorem closeAll_sections (closed : List Section) (opens : List OpenSection) :
    ∃ parts, (closeAll closed opens).1 = closed ++ parts ∧
      List.Forall₂ Closes (opens.filter fun current => !current.items.isEmpty) parts := by
  induction opens generalizing closed with
  | nil => exact ⟨[], by simp [closeAll], .nil⟩
  | cons current opens ih =>
    cases hitems : current.items.isEmpty with
    | true =>
      obtain ⟨parts, hparts, hcloses⟩ := ih closed
      refine ⟨parts, ?_, by simpa [hitems] using hcloses⟩
      simpa [closeAll, close, hitems] using hparts
    | false =>
      let part : Section := ⟨SectionId.allocate (closed.map (·.id)) current.label, current.label,
        current.items, current.line⟩
      obtain ⟨parts, hparts, hcloses⟩ := ih (closed ++ [part])
      refine ⟨part :: parts, ?_, ?_⟩
      · simpa [closeAll, close, hitems, part] using hparts
      · have hpart : Closes current part := ⟨rfl, rfl, rfl⟩
        simpa [hitems] using List.Forall₂.cons hpart hcloses

/-- All that closing a section reports is that it is empty. -/
theorem filter_close (closed : List Section) (current : OpenSection) :
    (close closed current).2.filter reportsEmpty = (close closed current).2 := by
  unfold close
  split <;> rfl

/-- The open sections without items are reported, in order. -/
theorem closeAll_reports (closed : List Section) (opens : List OpenSection) :
    (closeAll closed opens).2 =
      (opens.filter fun current => current.items.isEmpty).map fun current =>
        .onLine current.line (.emptySection current.label) := by
  induction opens generalizing closed with
  | nil => rfl
  | cons current opens ih =>
    cases hitems : current.items.isEmpty <;> simp [closeAll, close, hitems, ih]

/-- Sections have the identifiers that their labels are allocated in order, and closing keeps it so.
-/
theorem closeAll_ids {closed : List Section}
    (h : closed.map (·.id) = SectionId.allocateAll (closed.map (·.label)))
    (opens : List OpenSection) :
    (closeAll closed opens).1.map (·.id) =
      SectionId.allocateAll ((closeAll closed opens).1.map (·.label)) := by
  induction opens generalizing closed with
  | nil => exact h
  | cons current opens ih =>
    apply ih
    unfold close
    split
    · exact h
    · simp only [List.map_append, List.map_cons, List.map_nil]
      rw [SectionId.allocateAll_concat, ← h]

/-! ## What one line does -/

variable {ρ : Rounding} {config : Config} {number : Int} {line : Line} {lines : List Line}
  {reading : Reading} {diagnostics : List Diagnostic} {settings : Settings}
  {closed : List Section} {current : OpenSection} {headers : Headers} {document : Document}

/-- What a line does to a document of which a section is open: content joins the open section, a
start of a section closes it and opens another one, and any other line leaves it alone. -/
inductive BodyStep (ρ : Rounding) (settings : Settings) (closed : List Section)
    (current : OpenSection) (number : Int) : Line → Reading → List Diagnostic → Prop where
  /-- Content joins the open section. -/
  | content {line : Line} (items : List Item) {diagnostics : List Diagnostic}
    (hline : isContent line = true)
    (htells : Says ρ settings.bpm (.int settings.beatsPerBar) (number, line) items)
    (hdiagnostics : diagnostics.filter reportsEmpty = []) :
    BodyStep ρ settings closed current number line
      (.body settings closed { current with items := current.items ++ items }) diagnostics
  /-- A start of a section closes the open one. -/
  | sectionStart (label : String) :
    BodyStep ρ settings closed current number (.sectionStart label)
      (.body settings (close closed current).1 ⟨label, number, []⟩) (close closed current).2
  /-- A blank line or a late header changes nothing. -/
  | other {line : Line} {diagnostics : List Diagnostic} (hcontent : isContent line = false)
    (hstart : startsSection line = false) (hdiagnostics : diagnostics.filter reportsEmpty = []) :
    BodyStep ρ settings closed current number line (.body settings closed current) diagnostics

/-- Content joins the open section, and what is reported on its line is no empty section. -/
theorem content_of_addItems {reports : List Diagnostic} (hline : isContent line = true)
    (h : addItems ρ settings closed current number line = .ok (reading, reports)) :
    ∃ items, Says ρ settings.bpm (.int settings.beatsPerBar) (number, line) items ∧
      reading = .body settings closed { current with items := current.items ++ items } ∧
      reports.filter reportsEmpty = [] := by
  obtain ⟨⟨items, problems⟩, hitems, h⟩ := bind_eq_ok.1 h
  obtain ⟨rfl, rfl⟩ := Prod.mk.inj (Except.ok.inj h)
  exact ⟨items, says_of_lineItems hline hitems, rfl,
    filter_line_problems _ (lineItems_problems hitems)⟩

/-- A step inside a section is one of the three. -/
theorem bodyStep_of_step
    (h : step ρ config (.body settings closed current) number line = .ok (reading, diagnostics)) :
    BodyStep ρ settings closed current number line reading diagnostics := by
  obtain ⟨⟨reading', reports⟩, hread, h⟩ := bind_eq_ok.1 h
  obtain ⟨rfl, rfl⟩ := Prod.mk.inj (Except.ok.inj h)
  have hfirst := filter_line_problems number (problem?_isLineProblem line)
  cases line with
  | blank =>
    obtain ⟨rfl, rfl⟩ := Prod.mk.inj (Except.ok.inj hread)
    exact .other rfl rfl rfl
  | header key value =>
    obtain ⟨rfl, rfl⟩ := Prod.mk.inj (Except.ok.inj hread)
    exact .other rfl rfl rfl
  | sectionStart label =>
    obtain ⟨rfl, rfl⟩ := Prod.mk.inj (Except.ok.inj hread)
    exact .sectionStart label
  | performanceLyric | performance | cue | lyric =>
    obtain ⟨items, htells, rfl, hreports⟩ := content_of_addItems rfl hread
    exact .content items rfl htells (by rw [List.filter_append, hfirst, hreports]; rfl)

/-- What a line does to the heading of a document: content resolves the headers and opens the
section without a label, a start of a section resolves them and opens that section, and any other
line is taken in. -/
inductive HeadingStep (ρ : Rounding) (config : Config) (headers : Headers) (number : Int) :
    Line → Reading → List Diagnostic → Prop where
  /-- Content opens the section without a label. -/
  | content {line : Line} (settings : Settings) {resolved diagnostics : List Diagnostic}
    (items : List Item) (hline : isContent line = true)
    (hresolve : Settings.resolve ρ config headers = .ok (settings, resolved))
    (htells : Says ρ settings.bpm (.int settings.beatsPerBar) (number, line) items)
    (hdiagnostics : diagnostics.filter reportsEmpty = []) :
    HeadingStep ρ config headers number line
      (.body settings [] ⟨implicitLabel, number, items⟩) diagnostics
  /-- A start of a section opens it. -/
  | sectionStart (label : String) (settings : Settings) {resolved diagnostics : List Diagnostic}
    (hresolve : Settings.resolve ρ config headers = .ok (settings, resolved))
    (hdiagnostics : diagnostics.filter reportsEmpty = []) :
    HeadingStep ρ config headers number (.sectionStart label)
      (.body settings [] ⟨label, number, []⟩) diagnostics
  /-- A blank line or a header is taken in. -/
  | other {line : Line} {diagnostics : List Diagnostic}
    (hcontent : isContent line = false) (hstart : startsSection line = false)
    (hdiagnostics : diagnostics.filter reportsEmpty = []) :
    HeadingStep ρ config headers number line (.heading (takeIn headers (number, line))) diagnostics

/-- A step in the heading is one of the three. -/
theorem headingStep_of_step
    (h : step ρ config (.heading headers) number line = .ok (reading, diagnostics)) :
    HeadingStep ρ config headers number line reading diagnostics := by
  obtain ⟨⟨reading', reports⟩, hread, h⟩ := bind_eq_ok.1 h
  obtain ⟨rfl, rfl⟩ := Prod.mk.inj (Except.ok.inj h)
  have hfirst := filter_line_problems number (problem?_isLineProblem line)
  cases line with
  | blank =>
    obtain ⟨rfl, rfl⟩ := Prod.mk.inj (Except.ok.inj hread)
    exact .other rfl rfl rfl
  | header key value =>
    obtain ⟨rfl, rfl⟩ := Prod.mk.inj (Except.ok.inj hread)
    exact .other rfl rfl (filter_line_problems _ (headers_add_problems headers key value number))
  | sectionStart label =>
    obtain ⟨⟨settings, resolved⟩, hresolve, h⟩ := bind_eq_ok.1 hread
    obtain ⟨rfl, rfl⟩ := Prod.mk.inj (Except.ok.inj h)
    exact .sectionStart label settings hresolve (filter_resolve hresolve)
  -- Content resolves the headers first, and is then added to the section that it opens.
  | performanceLyric | performance | cue | lyric =>
    obtain ⟨⟨settings, resolved⟩, hresolve, h⟩ := bind_eq_ok.1 hread
    obtain ⟨⟨opened, more⟩, hadd, h⟩ := bind_eq_ok.1 h
    obtain ⟨rfl, rfl⟩ := Prod.mk.inj (Except.ok.inj h)
    obtain ⟨items, htells, rfl, hmore⟩ := content_of_addItems rfl hadd
    refine .content settings items rfl hresolve htells ?_
    rw [List.filter_append, List.filter_append, hfirst, filter_resolve hresolve, hmore]
    rfl

/-! ## What a run does -/

/-- An open section holds the items that the lines of a group say. -/
structure Opens (ρ : Rounding) (bpm beatsPerBar : Value) (group : Group)
    (current : OpenSection) : Prop where
  /-- The label is that of the group. -/
  label : current.label = group.label
  /-- The section starts where the group does. -/
  line : current.line = group.line
  /-- The items are those of the lines in order. -/
  items : ∃ said, List.Forall₂ (Says ρ bpm beatsPerBar) group.content said ∧
    current.items = said.flatten

/-- What is read to the end comes from closing open sections one after the other. -/
structure ClosesAs (settings : Settings) (closed : List Section) (opens : List OpenSection)
    (document : Document) (before : List Diagnostic) : Prop where
  /-- The song has the closed sections. -/
  song : document.song = toSong settings (closeAll closed opens).1
  /-- The reports of empty sections are those of the closing. -/
  reports : (before ++ document.diagnostics).filter reportsEmpty = (closeAll closed opens).2

/-- Reports that are of no empty section may stand before the others. -/
theorem ClosesAs.behind {opens : List OpenSection} {reports before : List Diagnostic}
    (h : ClosesAs settings closed opens document before)
    (hreports : reports.filter reportsEmpty = []) :
    ClosesAs settings closed opens document (reports ++ before) := by
  refine ⟨h.song, ?_⟩
  rw [List.append_assoc, List.filter_append, hreports, h.reports]
  rfl

/-- A section is closed before the ones that are opened after it. -/
theorem ClosesAs.close {opens : List OpenSection} {before : List Diagnostic}
    (h : ClosesAs settings (Document.close closed current).1 opens document before) :
    ClosesAs settings closed (current :: opens) document
      ((Document.close closed current).2 ++ before) := by
  refine ⟨h.song, ?_⟩
  rw [List.append_assoc, List.filter_append, h.reports, filter_close]
  rfl

/-- A document that ends inside a section closes it. -/
theorem finish_body :
    finish ρ config (.body settings closed current) =
      .ok ⟨toSong settings (close closed current).1, (close closed current).2⟩ := rfl

/-- From an open section on, the lines up to the next start of a section continue the open section,
and each start of a section opens one more. The induction is on the lines; a start of a section is
the case in which the open section changes. -/
theorem closesAs_of_run
    (hrun : run ρ config (.body settings closed current) number lines = .ok (reading, diagnostics))
    (hfinish : finish ρ config reading = .ok document) :
    ∃ said opens,
      List.Forall₂ (Says ρ settings.bpm (.int settings.beatsPerBar))
        (contentBefore (numbered number lines)) said ∧
      List.Forall₂ (Opens ρ settings.bpm (.int settings.beatsPerBar))
        (startedGroups (numbered number lines)) opens ∧
      ClosesAs settings closed ({ current with items := current.items ++ said.flatten } :: opens)
        document diagnostics := by
  induction lines generalizing closed current number diagnostics with
  | nil =>
    obtain ⟨rfl, rfl⟩ := Prod.mk.inj (Except.ok.inj hrun)
    rw [finish_body] at hfinish
    obtain rfl := Except.ok.inj hfinish
    refine ⟨[], [], .nil, .nil, ?_, ?_⟩
    · simp [closeAll]
    · simp [closeAll, filter_close]
  | cons line lines ih =>
    obtain ⟨⟨next, ds⟩, hstep, hrun⟩ := bind_eq_ok.1 hrun
    obtain ⟨⟨last, more⟩, hrest, hrun⟩ := bind_eq_ok.1 hrun
    obtain ⟨rfl, rfl⟩ := Prod.mk.inj (Except.ok.inj hrun)
    cases bodyStep_of_step hstep with
    | content items hline htells hds =>
      obtain ⟨said, opens, hsaid, hopens, hcloses⟩ := ih hrest
      refine ⟨items :: said, opens, ?_, ?_, ?_⟩
      · rw [numbered, contentBefore_cons_content _ hline]
        exact .cons htells hsaid
      · rwa [numbered, startedGroups_cons_other _ (startsSection_of_isContent hline)]
      · rw [List.flatten_cons, ← List.append_assoc]
        exact hcloses.behind hds
    -- The open section gets no more items, and the others go to the one that the line opens.
    | sectionStart label =>
      obtain ⟨said, opens, hsaid, hopens, hcloses⟩ := ih hrest
      refine ⟨[], ⟨label, number, said.flatten⟩ :: opens, ?_, ?_, ?_⟩
      · rw [numbered, contentBefore_cons_sectionStart]
        exact .nil
      · rw [numbered, startedGroups]
        exact .cons ⟨rfl, rfl, said, hsaid, rfl⟩ hopens
      · rw [List.flatten_nil, List.append_nil]
        exact hcloses.close
    | other hcontent hstart hds =>
      obtain ⟨said, opens, hsaid, hopens, hcloses⟩ := ih hrest
      refine ⟨said, opens, ?_, ?_, hcloses.behind hds⟩
      · rwa [numbered, contentBefore_cons_other _ hcontent hstart]
      · rwa [numbered, startedGroups_cons_other _ hstart]

/-- From the heading on, the groups of the lines are opened and closed in order. The headers are
resolved once, at the first line with content or start of a section, or at the end. -/
theorem closesAs_of_run_heading
    (hrun : run ρ config (.heading headers) number lines = .ok (reading, diagnostics))
    (hfinish : finish ρ config reading = .ok document) :
    ∃ settings resolved opens,
      Settings.resolve ρ config (headersFrom headers (numbered number lines)) =
        .ok (settings, resolved) ∧
      List.Forall₂ (Opens ρ settings.bpm (.int settings.beatsPerBar))
        (groups (numbered number lines)) opens ∧
      ClosesAs settings [] opens document diagnostics := by
  induction lines generalizing headers number diagnostics with
  | nil =>
    obtain ⟨rfl, rfl⟩ := Prod.mk.inj (Except.ok.inj hrun)
    obtain ⟨⟨settings, resolved⟩, hresolve, hfinish⟩ := bind_eq_ok.1 hfinish
    obtain rfl := Except.ok.inj hfinish
    exact ⟨settings, resolved, [], hresolve, .nil, rfl, filter_resolve hresolve⟩
  | cons line lines ih =>
    obtain ⟨⟨next, ds⟩, hstep, hrun⟩ := bind_eq_ok.1 hrun
    obtain ⟨⟨last, more⟩, hrest, hrun⟩ := bind_eq_ok.1 hrun
    obtain ⟨rfl, rfl⟩ := Prod.mk.inj (Except.ok.inj hrun)
    cases headingStep_of_step hstep with
    -- From here on a section is open, and the headers of later lines are not read.
    | content settings items hline hresolve htells hds =>
      obtain ⟨said, opens, hsaid, hopens, hcloses⟩ := closesAs_of_run hrest hfinish
      have hgroups : groups (numbered number (line :: lines)) =
          ⟨implicitLabel, number, (number, line) :: contentBefore (numbered (number + 1) lines)⟩ ::
            startedGroups (numbered (number + 1) lines) := by
        simp [groups, leadingGroup?, numbered, contentBefore_cons_content _ hline,
          startedGroups_cons_other _ (startsSection_of_isContent hline)]
      rw [hgroups, numbered, headersFrom_cons_content headers _ hline]
      have hopened : Opens ρ settings.bpm (.int settings.beatsPerBar)
          ⟨implicitLabel, number, (number, line) :: contentBefore (numbered (number + 1) lines)⟩
          ⟨implicitLabel, number, items ++ said.flatten⟩ :=
        ⟨rfl, rfl, items :: said, .cons htells hsaid, rfl⟩
      exact ⟨settings, _, _, hresolve, .cons hopened hopens, hcloses.behind hds⟩
    | sectionStart label settings hresolve hds =>
      obtain ⟨said, opens, hsaid, hopens, hcloses⟩ := closesAs_of_run hrest hfinish
      have hgroups : groups (numbered number (.sectionStart label :: lines)) =
          ⟨label, number, contentBefore (numbered (number + 1) lines)⟩ ::
            startedGroups (numbered (number + 1) lines) := by
        simp [groups, leadingGroup?, numbered, contentBefore_cons_sectionStart, startedGroups]
      rw [hgroups, numbered, headersFrom_cons_sectionStart headers _ rfl]
      exact ⟨settings, _, _, hresolve, .cons ⟨rfl, rfl, said, hsaid, rfl⟩ hopens,
        hcloses.behind hds⟩
    | other hcontent hstart hds =>
      obtain ⟨settings, resolved, opens, hresolve, hopens, hcloses⟩ := ih hrest
      refine ⟨settings, resolved, opens, ?_, ?_, hcloses.behind hds⟩
      · rwa [numbered, headersFrom_cons_other headers _ hcontent hstart]
      · rwa [groups, leadingGroup?, numbered, contentBefore_cons_other _ hcontent hstart,
          startedGroups_cons_other _ hstart]

/-- An open section is without items exactly if its group is without content. -/
theorem Opens.isEmpty_eq {bpm beatsPerBar : Value} {group : Group}
    (h : Opens ρ bpm beatsPerBar group current) :
    current.items.isEmpty = group.content.isEmpty := by
  obtain ⟨said, hsaid, hitems⟩ := h.items
  have hiff := flatten_eq_nil_iff hsaid
  rw [← hitems] at hiff
  rw [Bool.eq_iff_iff, List.isEmpty_iff, List.isEmpty_iff, hiff]

/-- A closed section holds what the lines of its group say. -/
theorem Opens.holds {bpm beatsPerBar : Value} {group : Group} {part : Section}
    (hopens : Opens ρ bpm beatsPerBar group current) (hcloses : Closes current part) :
    Holds ρ bpm beatsPerBar group part := by
  obtain ⟨said, hsaid, hitems⟩ := hopens.items
  exact ⟨hcloses.label.trans hopens.label, hcloses.line.trans hopens.line, said, hsaid,
    hcloses.items.trans hitems⟩

/-- Open sections that hold what groups say are closed to sections that hold it. -/
theorem holds_of_closes {bpm beatsPerBar : Value} {found : List Group} {opens : List OpenSection}
    {parts : List Section} (hopens : List.Forall₂ (Opens ρ bpm beatsPerBar) found opens)
    (hcloses : List.Forall₂ Closes opens parts) :
    List.Forall₂ (Holds ρ bpm beatsPerBar) found parts := by
  induction hopens generalizing parts with
  | nil =>
    cases hcloses
    exact .nil
  | cons hfirst hrest ih =>
    cases hcloses with
    | cons hpart hparts => exact .cons (hfirst.holds hpart) (ih hparts)

/-- The reports of empty groups are those of the open sections without items. -/
theorem reports_eq {bpm beatsPerBar : Value} {found : List Group} {opens : List OpenSection}
    (h : List.Forall₂ (Opens ρ bpm beatsPerBar) found opens) :
    ((opens.filter fun current => current.items.isEmpty).map fun current =>
        Diagnostic.onLine current.line (.emptySection current.label)) =
      (found.filter fun group => group.content.isEmpty).map Group.report := by
  induction h with
  | nil => rfl
  | @cons group current found opens hfirst hrest ih =>
    rw [List.filter_cons, List.filter_cons, hfirst.isEmpty_eq]
    split
    · rw [List.map_cons, List.map_cons, ih, hfirst.label, hfirst.line]
      rfl
    · exact ih

/-- What a text is read to: the settings are those that the headers in front of the first section
are resolved to, and the sections come from closing one open section for each group. -/
theorem closesAs_of_read {text : List Char} (h : read ρ config text = .ok document) :
    ∃ settings resolved opens,
      Settings.resolve ρ config (headersOf (numberedLines text)) = .ok (settings, resolved) ∧
      List.Forall₂ (Opens ρ settings.bpm (.int settings.beatsPerBar))
        (groups (numberedLines text)) opens ∧
      ClosesAs settings [] opens document [] := by
  obtain ⟨⟨reading, before⟩, hrun, h⟩ := bind_eq_ok.1 h
  obtain ⟨ended, hfinish, h⟩ := bind_eq_ok.1 h
  obtain rfl := Except.ok.inj h
  obtain ⟨settings, resolved, opens, hresolve, hopens, hsong, hreports⟩ :=
    closesAs_of_run_heading hrun hfinish
  exact ⟨settings, resolved, opens, hresolve, hopens, hsong, hreports⟩

/-- The settings of a song are those that the headers are resolved to. -/
theorem settings_of_read {text : List Char} (h : read ρ config text = .ok document) :
    ∃ settings resolved,
      Settings.resolve ρ config (headersOf (numberedLines text)) = .ok (settings, resolved) ∧
      document.song = toSong settings document.song.sections := by
  obtain ⟨settings, resolved, opens, hresolve, -, hsong, -⟩ := closesAs_of_read h
  exact ⟨settings, resolved, hresolve, by rw [hsong]; rfl⟩

/-- The sections of a song hold the groups that have content, in order. -/
theorem holds_of_read {text : List Char} (h : read ρ config text = .ok document) :
    List.Forall₂ (Holds ρ document.song.bpm document.song.beatsPerBar)
      ((groups (numberedLines text)).filter fun group => !group.content.isEmpty)
      document.song.sections := by
  obtain ⟨settings, -, opens, -, hopens, hsong, -⟩ := closesAs_of_read h
  obtain ⟨parts, hparts, hcloses⟩ := closeAll_sections [] opens
  have hfiltered := List.rel_filter
    (p := fun group : Group => !group.content.isEmpty)
    (q := fun current : OpenSection => !current.items.isEmpty)
    (fun _ _ hfirst => by simp only [hfirst.isEmpty_eq]) hopens
  rw [hsong, toSong, hparts, List.nil_append]
  exact holds_of_closes hfiltered hcloses

/-- Reading loses, repeats and misplaces nothing. The sections of the song are the groups with
content in order, each with its label and its line, and with the items that its lines say one after
the other, cues being read at the tempo of the song. Their identifiers are those that their labels
are allocated in order. Each start of a section without content is reported once, in order, and
nothing else is reported as an empty section. -/
theorem sections_of_read {ρ : Rounding} {config : Config} {text : List Char} {document : Document}
    (h : read ρ config text = .ok document) :
    List.Forall₂ (Holds ρ document.song.bpm document.song.beatsPerBar)
        ((groups (numberedLines text)).filter fun group => !group.content.isEmpty)
        document.song.sections ∧
      document.song.sections.map (·.id) =
        SectionId.allocateAll (document.song.sections.map (·.label)) ∧
      document.diagnostics.filter reportsEmpty =
        ((groups (numberedLines text)).filter fun group => group.content.isEmpty).map
          Group.report := by
  obtain ⟨settings, -, opens, -, hopens, hsong, hreports⟩ := closesAs_of_read h
  refine ⟨holds_of_read h, ?_, ?_⟩
  · rw [hsong]
    exact closeAll_ids rfl opens
  · rw [List.nil_append] at hreports
    rw [hreports, closeAll_reports, reports_eq hopens]

/-- A document of all kinds of lines: it opens without a section, and one of its sections is empty.
-/
def sampleText : List Char :=
  "@Title T\n\nopening\n[Verse]\n(soft) la\n(loud)\n<SFX hit duration=2s>\n[Gap]\n[Coda]\nend".toList

/-- The groups of the document that have content are its three sections, and the empty one is
reported on its line. -/
theorem sections_of_read_sample : ∃ document,
    read .binary64 .standard sampleText = .ok document ∧
      document.song.sections.map (fun part => (part.label, part.line, part.items.length)) =
        [("Intro", 3, 1), ("Verse", 4, 4), ("Coda", 9, 1)] ∧
      document.diagnostics = [.onLine 8 (.emptySection "Gap")] ∧
      List.Forall₂ (Holds .binary64 document.song.bpm document.song.beatsPerBar)
        ((groups (numberedLines sampleText)).filter fun group => !group.content.isEmpty)
        document.song.sections := by
  have hok : (read .binary64 .standard sampleText).toOption.map (fun document =>
      (document.song.sections.map (fun part => (part.label, part.line, part.items.length)),
        document.diagnostics)) =
      some ([("Intro", 3, 1), ("Verse", 4, 4), ("Coda", 9, 1)],
        [.onLine 8 (.emptySection "Gap")]) := by decide +kernel
  cases h : read .binary64 .standard sampleText with
  | error fault => simp [h, Except.toOption] at hok
  | ok document =>
    simp only [h, Except.toOption, Option.map_some, Option.some.injEq, Prod.mk.injEq] at hok
    exact ⟨document, rfl, hok.1, hok.2, (sections_of_read h).1⟩

end CueSheet.Document
