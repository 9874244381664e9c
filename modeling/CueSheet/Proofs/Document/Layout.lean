import CueSheet.Ir
import CueSheet.Proofs.Document.Problems
import CueSheet.Proofs.Line

/-!
# Layout does not matter

Blank lines, indentation, carriage returns and byte order marks change nothing but the numbers of
lines. To say so, the numbers are erased, that is set to zero, wherever a reading keeps or reports
them. A step from a state without numbers does what the step from the state with numbers does, without
the numbers (`Document.step_eraseLines`), and a blank line does nothing. So a run over all lines and a
run over those that are not blank stay alike although they are out of step
(`Document.run_eraseLines`), and two texts with the same content are read alike
(`Document.read_same_of_contentLines_eq`).
-/

namespace CueSheet

/-! ## Erasing the numbers of lines -/

/-- The problem without the number of a line in it. -/
def Problem.eraseLine : Problem → Problem
  | .repeatedHeader key stored _ => .repeatedHeader key stored 0
  | problem => problem

/-- The diagnostic without the numbers of lines in it. -/
def Diagnostic.eraseLines (diagnostic : Diagnostic) : Diagnostic :=
  { diagnostic with
    problem := diagnostic.problem.eraseLine
    line := diagnostic.line.map fun _ => 0 }

/-- The header without the number of its line. -/
def Header.eraseLine (header : Header) : Header := { header with line := 0 }

/-- The item without the number of its line. -/
def Item.eraseLine : Item → Item
  | .performance text _ => .performance text 0
  | .lyric text _ => .lyric text 0
  | .cue c _ => .cue c 0
  | .raw text => .raw text

/-- The section without the numbers of its lines. -/
def Section.eraseLines (part : Section) : Section :=
  { part with items := part.items.map Item.eraseLine, line := 0 }

/-- The section that is being read without the numbers of its lines. -/
def OpenSection.eraseLines (current : OpenSection) : OpenSection :=
  { current with items := current.items.map Item.eraseLine, line := 0 }

/-- The reading without the numbers of its lines. -/
def Reading.eraseLines : Reading → Reading
  | .heading headers => .heading (headers.map Header.eraseLine)
  | .body settings closed current =>
    .body settings (closed.map Section.eraseLines) current.eraseLines

/-- The song without the numbers of its lines. -/
def Song.eraseLines (song : Song) : Song :=
  { song with sections := song.sections.map Section.eraseLines }

/-- The document without the numbers of its lines. -/
def Document.eraseLines (document : Document) : Document :=
  ⟨document.song.eraseLines, document.diagnostics.map Diagnostic.eraseLines⟩

/-- A result of reading with its diagnostics, both without the numbers of lines. -/
def eraseResult (result : Reading × List Diagnostic) : Reading × List Diagnostic :=
  (result.1.eraseLines, result.2.map Diagnostic.eraseLines)

/-- Erasing the number in a problem keeps its severity. -/
theorem Problem.severity_eraseLine (problem : Problem) :
    problem.eraseLine.severity = problem.severity := by
  cases problem <;> rfl

/-- A problem that is reported on a line is reported without its number. -/
theorem Diagnostic.eraseLines_onLine (line : Int) (problem : Problem) :
    (Diagnostic.onLine line problem).eraseLines = .onLine 0 problem.eraseLine := by
  simp [Diagnostic.eraseLines, Diagnostic.onLine, Problem.severity_eraseLine]

/-- Problems without numbers of lines in them are reported without the number of their line. -/
theorem map_eraseLines_onLine {problems : List Problem} (line : Int)
    (h : ∀ problem ∈ problems, problem.eraseLine = problem) :
    (problems.map (Diagnostic.onLine line)).map Diagnostic.eraseLines =
      problems.map (Diagnostic.onLine 0) := by
  rw [List.map_map]
  refine List.map_congr_left fun problem hproblem => ?_
  rw [Function.comp_apply, Diagnostic.eraseLines_onLine, h problem hproblem]

/-- A problem in the value of a header has no number of a line in it. -/
theorem Document.eraseLine_of_isHeaderProblem {problem : Problem}
    (h : isHeaderProblem problem = true) : problem.eraseLine = problem := by
  cases problem <;> first | rfl | cases h

/-- A problem in the body of a cue has no number of a line in it. -/
theorem Document.eraseLine_of_isCueProblem {problem : Problem} (h : isCueProblem problem = true) :
    problem.eraseLine = problem := by
  cases problem <;> first | rfl | cases h

/-! ## Canonical forms -/

/-- The canonical form of an item has no numbers of lines in it. -/
theorem Item.toIr_eraseLine (item : Item) : item.eraseLine.toIr = item.toIr := by
  cases item <;> rfl

/-- The canonical form of a section has no numbers of lines in it. -/
theorem Section.toIr_eraseLines (part : Section) : part.eraseLines.toIr = part.toIr := by
  have hitems : (part.items.map Item.eraseLine).mapM Item.toIr = part.items.mapM Item.toIr := by
    rw [List.mapM_map]
    exact congrArg part.items.mapM (funext Item.toIr_eraseLine)
  rw [Section.toIr, Section.eraseLines, hitems, Section.toIr]

/-- The canonical form of a song has no numbers of lines in it. -/
theorem Song.toIr_eraseLines (song : Song) : song.eraseLines.toIr = song.toIr := by
  have hsections : (song.sections.map Section.eraseLines).mapM Section.toIr =
      song.sections.mapM Section.toIr := by
    rw [List.mapM_map]
    exact congrArg song.sections.mapM (funext Section.toIr_eraseLines)
  unfold Song.toIr Song.eraseLines
  rw [hsections]
  rfl

/-! ## Headers -/

namespace Headers

variable {headers : Headers}

/-- A header is found without the number of its line. -/
theorem get?_eraseLine (headers : Headers) (key : HeaderKey) :
    get? (headers.map Header.eraseLine) key = (headers.get? key).map Header.eraseLine := by
  unfold get?
  rw [List.find?_map]
  rfl

/-- A header line is taken in without its number. -/
theorem add_eraseLine (headers : Headers) (name value : String) (line : Int) :
    add (headers.map Header.eraseLine) name value 0 =
      ((headers.add name value line).1.map Header.eraseLine,
        (headers.add name value line).2.map Problem.eraseLine) := by
  unfold add
  cases HeaderKey.ofName? name with
  | none => rfl
  | some key =>
    dsimp only
    rw [get?_eraseLine]
    cases headers.get? key with
    | none => simp [Header.eraseLine]
    | some first => rfl

end Headers

namespace Settings

variable {ρ : Rounding} {config : Config}

/-- A header is read without the number of its line. -/
theorem readIfPresent_eraseLine {α : Type} (headers : Headers) (key : HeaderKey)
    {read : String → Except Fault (α × List Problem)} (absent : α)
    (hread : ∀ value a problems, read value = .ok (a, problems) →
      ∀ problem ∈ problems, Document.isHeaderProblem problem = true) :
    readIfPresent (headers.map Header.eraseLine) key read absent =
      Prod.map id (List.map Diagnostic.eraseLines) <$> readIfPresent headers key read absent := by
  unfold readIfPresent
  rw [Headers.get?_eraseLine]
  cases headers.get? key with
  | none => rfl
  | some header =>
    dsimp only [Option.map_some, Header.eraseLine]
    cases hvalue : read header.value with
    | error fault => rfl
    | ok result =>
      obtain ⟨a, problems⟩ := result
      have hproblems : ∀ problem ∈ problems, problem.eraseLine = problem := fun problem hproblem =>
        Document.eraseLine_of_isHeaderProblem (hread _ _ _ hvalue problem hproblem)
      rw [ok_bind, ok_bind]
      exact congrArg (fun ds => Except.ok (a, ds)) (map_eraseLines_onLine _ hproblems).symm

/-- Headers are resolved without the numbers of their lines. -/
theorem resolve_eraseLine (headers : Headers) :
    resolve ρ config (headers.map Header.eraseLine) =
      Prod.map id (List.map Diagnostic.eraseLines) <$> resolve ρ config headers := by
  -- Some headers are taken as they are: what counts of them is the value.
  have hvalue (key : HeaderKey) :
      (Headers.get? (headers.map Header.eraseLine) key).map (·.value) =
        (headers.get? key).map (·.value) := by
    rw [Headers.get?_eraseLine, Option.map_map]
    rfl
  unfold resolve
  simp only [hvalue, readIfPresent_eraseLine headers _ _ fun _ _ _ => Document.readTempoMap_problems,
    readIfPresent_eraseLine headers _ _ fun _ _ _ => Document.readSignature_problems,
    readIfPresent_eraseLine headers _ _ fun _ _ _ => Document.readPositive_problems,
    bind_map_left, map_bind, map_pure, Prod.map, List.map_append, id_eq]

end Settings

namespace Document

variable {ρ : Rounding} {config : Config}

/-! ## Steps -/

/-- A section is closed without the numbers of its lines. -/
theorem close_eraseLines (closed : List Section) (current : OpenSection) :
    close (closed.map Section.eraseLines) current.eraseLines =
      ((close closed current).1.map Section.eraseLines,
        (close closed current).2.map Diagnostic.eraseLines) := by
  -- The id of a section depends on the ids before it, not on the lines of those sections.
  have hids : (closed.map Section.eraseLines).map (·.id) = closed.map (·.id) := by
    rw [List.map_map]
    rfl
  unfold close OpenSection.eraseLines
  dsimp only
  rw [List.isEmpty_map, hids]
  split_ifs with hempty
  · rw [List.map_singleton, Diagnostic.eraseLines_onLine]
    rfl
  · simp [Section.eraseLines]

/-- The items of a line come without its number. -/
theorem lineItems_eraseLine (settings : Settings) (number : Int) (line : Line) :
    lineItems ρ settings 0 line =
      Prod.map (List.map Item.eraseLine) id <$> lineItems ρ settings number line := by
  cases line with
  | blank | header | sectionStart | performanceLyric | performance | lyric => rfl
  | cue body =>
    unfold lineItems
    rw [map_bind]
    rfl

/-- A line adds its items without its number. -/
theorem addItems_eraseLines (settings : Settings) (closed : List Section) (current : OpenSection)
    (number : Int) (line : Line) :
    addItems ρ settings (closed.map Section.eraseLines) current.eraseLines 0 line =
      eraseResult <$> addItems ρ settings closed current number line := by
  unfold addItems
  rw [lineItems_eraseLine settings number line]
  cases hitems : lineItems ρ settings number line with
  | error fault => rfl
  | ok result =>
    obtain ⟨items, problems⟩ := result
    have hproblems : ∀ problem ∈ problems, problem.eraseLine = problem := fun problem hproblem =>
      eraseLine_of_isCueProblem (lineItems_cueProblems hitems problem hproblem)
    have hreports := map_eraseLines_onLine number hproblems
    have hcurrent : current.items.map Item.eraseLine ++ items.map Item.eraseLine =
        (current.items ++ items).map Item.eraseLine := List.map_append.symm
    show Except.ok _ = Except.ok _
    rw [eraseResult, hreports]
    simp [Reading.eraseLines, OpenSection.eraseLines]

/-- A line ends the heading without its number. -/
theorem leaveHeading_eraseLines (headers : Headers) (number : Int) (line : Line) :
    leaveHeading ρ config (headers.map Header.eraseLine) 0 line =
      eraseResult <$> leaveHeading ρ config headers number line := by
  unfold leaveHeading
  rw [Settings.resolve_eraseLine, bind_map_left, map_bind]
  refine bind_congr fun result => ?_
  obtain ⟨settings, diagnostics⟩ := result
  have hadd (label : String) : addItems ρ settings [] ⟨label, 0, []⟩ 0 line =
      eraseResult <$> addItems ρ settings [] ⟨label, number, []⟩ number line :=
    addItems_eraseLines settings [] ⟨label, number, []⟩ number line
  cases line with
  | sectionStart label => rfl
  | blank | header | performanceLyric | performance | cue | lyric =>
    dsimp only [Prod.map, id_eq]
    rw [hadd, bind_map_left, map_bind]
    refine bind_congr fun result => ?_
    simp [eraseResult]

/-- A line of known kind is read without its number. -/
theorem readLine_eraseLines (reading : Reading) (number : Int) (line : Line) :
    readLine ρ config reading.eraseLines 0 line =
      eraseResult <$> readLine ρ config reading number line := by
  cases reading with
  | heading headers =>
    -- Every line but a blank one and a header ends the heading.
    have hleave : leaveHeading ρ config (headers.map Header.eraseLine) 0 line =
        eraseResult <$> leaveHeading ρ config headers number line :=
      leaveHeading_eraseLines headers number line
    cases line with
    | blank => rfl
    | header key value =>
      have hadd := Headers.add_eraseLine headers key value number
      unfold readLine
      simp only [Reading.eraseLines, hadd, map_pure, eraseResult, List.map_map]
      refine congrArg (fun ds => pure (_, ds)) (List.map_congr_left fun problem _ => ?_)
      exact (Diagnostic.eraseLines_onLine number problem).symm
    | sectionStart | performanceLyric | performance | cue | lyric => exact hleave
  | body settings closed current =>
    have hitems : addItems ρ settings (closed.map Section.eraseLines) current.eraseLines 0 line =
        eraseResult <$> addItems ρ settings closed current number line :=
      addItems_eraseLines settings closed current number line
    cases line with
    | blank | header => rfl
    | sectionStart label =>
      have hclose := close_eraseLines closed current
      unfold readLine
      simp only [Reading.eraseLines, hclose, map_pure, eraseResult]
      rfl
    | performanceLyric | performance | cue | lyric => exact hitems

/-- A line is read without its number. -/
theorem step_eraseLines (reading : Reading) (number : Int) (line : Line) :
    step ρ config reading.eraseLines 0 line =
      eraseResult <$> step ρ config reading number line := by
  -- A malformed marker is reported with the text of its line.
  have hproblem : ∀ problem ∈ line.problem?.toList, problem.eraseLine = problem := by
    rcases line with _ | _ | _ | _ | _ | _ | ⟨text, _ | marker⟩ <;>
      simp [Line.problem?, Problem.eraseLine]
  have hreports := map_eraseLines_onLine number hproblem
  unfold step
  rw [readLine_eraseLines reading number line, bind_map_left, map_bind]
  refine bind_congr fun result => ?_
  simp only [map_pure, eraseResult, List.map_append, hreports]

/-! ## Runs -/

/-- A blank line is passed over. -/
theorem run_blank (reading : Reading) (number : Int) (lines : List Line) :
    run ρ config reading number (.blank :: lines) = run ρ config reading (number + 1) lines := by
  have hstep : step ρ config reading number .blank = .ok (reading, []) := by
    cases reading <;> rfl
  rw [run, hstep, ok_bind]
  exact bind_pure _

/-- Two readings that differ in numbers of lines only go on alike, the one over all lines and the
other over those that are not blank, whatever the numbers of these lines. -/
theorem run_eraseLines {reading reading' : Reading} (h : reading.eraseLines = reading'.eraseLines)
    (number number' : Int) (lines : List Line) :
    eraseResult <$> run ρ config reading number lines =
      eraseResult <$> run ρ config reading' number' (lines.filter (· ≠ .blank)) := by
  induction lines generalizing reading reading' number number' with
  | nil => exact congrArg (fun r => Except.ok (r, [])) h
  | cons line lines ih =>
    by_cases hblank : line = .blank
    · -- Only the run over all lines makes a step here.
      rw [List.filter_cons_of_neg (by simpa using hblank), hblank, run_blank]
      exact ih h (number + 1) number'
    · rw [List.filter_cons_of_pos (by simpa using hblank)]
      have hstep : eraseResult <$> step ρ config reading number line =
          eraseResult <$> step ρ config reading' number' line := by
        rw [← step_eraseLines, ← step_eraseLines, h]
      -- Both runs take the same line, but under different numbers and from different readings.
      refine map_bind_eq_of_map_eq hstep fun result result' hresult => ?_
      obtain ⟨hreading, hdiagnostics⟩ := Prod.mk.inj hresult
      refine map_bind_eq_of_map_eq (ih hreading (number + 1) (number' + 1)) fun rest rest' hrest => ?_
      obtain ⟨hreading', hmore⟩ := Prod.mk.inj hrest
      rw [map_pure, map_pure, eraseResult, eraseResult, hreading', List.map_append,
        List.map_append, hdiagnostics, hmore]

/-- A document is ended without the numbers of its lines. -/
theorem finish_eraseLines (reading : Reading) :
    finish ρ config reading.eraseLines = Document.eraseLines <$> finish ρ config reading := by
  cases reading with
  | heading headers =>
    unfold finish Reading.eraseLines
    dsimp only
    rw [Settings.resolve_eraseLine, bind_map_left, map_bind]
    rfl
  | body settings closed current =>
    unfold finish Reading.eraseLines
    dsimp only
    rw [close_eraseLines]
    rfl

/-! ## Texts -/

/-- The stripped lines of a text that are not blank, byte order marks at its start aside. -/
def contentLines (text : List Char) : List (List Char) :=
  ((Text.lines (Text.dropMarks text)).map Text.strip).filter (!·.isEmpty)

/-- The lines of a text that are not blank are those of its content. -/
theorem filter_linesOf (text : List Char) :
    (linesOf text).filter (· ≠ .blank) = (contentLines text).map Line.ofStripped := by
  have hlines : linesOf text =
      ((Text.lines (Text.dropMarks text)).map Text.strip).map Line.ofStripped := by
    rw [linesOf, List.map_map]
    rfl
  rw [hlines, contentLines, List.filter_map]
  refine congrArg (List.map Line.ofStripped) (List.filter_congr fun line _ => ?_)
  cases line <;> simp [Line.ofStripped_eq_blank_iff]

/-- A text is read, numbers of lines aside, as what its content says. -/
theorem read_eraseLines {text text' : List Char} (h : contentLines text = contentLines text') :
    Document.eraseLines <$> read ρ config text = Document.eraseLines <$> read ρ config text' := by
  have hrun : eraseResult <$> run ρ config (.heading []) 1 (linesOf text) =
      eraseResult <$> run ρ config (.heading []) 1 (linesOf text') := by
    rw [run_eraseLines rfl 1 1, run_eraseLines rfl 1 1 (linesOf text'), filter_linesOf,
      filter_linesOf, h]
  refine map_bind_eq_of_map_eq hrun fun result result' hresult => ?_
  obtain ⟨hreading, hdiagnostics⟩ := Prod.mk.inj hresult
  have hfinish : Document.eraseLines <$> finish ρ config result.1 =
      Document.eraseLines <$> finish ρ config result'.1 := by
    rw [← finish_eraseLines, ← finish_eraseLines, hreading]
  refine map_bind_eq_of_map_eq hfinish fun document document' hdocument => ?_
  obtain ⟨hsong, hmore⟩ := Document.mk.inj hdocument
  rw [map_pure, map_pure, eraseLines, eraseLines, hsong, List.map_append, List.map_append,
    hdiagnostics, hmore]

/-- Texts with the same content say the same: their layout decides about nothing but the numbers of
lines. -/
theorem read_same_of_contentLines_eq (ρ : Rounding) (config : Config) {text text' : List Char}
    (h : contentLines text = contentLines text') :
    (∀ fault, read ρ config text = .error fault ↔ read ρ config text' = .error fault) ∧
      ∀ document document', read ρ config text = .ok document →
        read ρ config text' = .ok document' →
          document.song.toIr = document'.song.toIr ∧
            document.diagnostics.map Diagnostic.eraseLines =
              document'.diagnostics.map Diagnostic.eraseLines := by
  have hread : Document.eraseLines <$> read ρ config text =
      Document.eraseLines <$> read ρ config text' := read_eraseLines h
  constructor
  · intro fault
    rw [← map_eq_error (f := Document.eraseLines), hread, map_eq_error]
  · intro document document' hdocument hdocument'
    rw [hdocument, hdocument'] at hread
    obtain ⟨hsong, hdiagnostics⟩ := Document.mk.inj (Except.ok.inj hread)
    refine ⟨?_, hdiagnostics⟩
    rw [← Song.toIr_eraseLines, hsong, Song.toIr_eraseLines]

/-- A text with a repeated header, a marker that is not closed and a section without content. -/
def tightText : List Char :=
  "@Title One\n@Title Two\n[A]\nla la\n<bells\n[B]\n".toList

/-- The same text with a byte order mark, other line ends, indentation and blank lines. -/
def looseText : List Char :=
  "\ufeff\n@Title One\r\n\r\n  @Title Two\t\r\n\n\n [A]\n\tla la  \n\n<bells\n\n[B]".toList

/-- Both texts have the same lines with content. What is reported on them stands on different lines,
and nothing else is different. -/
theorem read_same_of_contentLines_eq_tightText :
    contentLines tightText = contentLines looseText ∧
      ∃ document document', read .binary64 .standard tightText = .ok document ∧
        read .binary64 .standard looseText = .ok document' ∧
          document.diagnostics.map (·.line) = [some 2, some 5, some 6] ∧
          document'.diagnostics.map (·.line) = [some 4, some 10, some 12] ∧
          document.song.toIr = document'.song.toIr ∧
          document.diagnostics.map Diagnostic.eraseLines =
            document'.diagnostics.map Diagnostic.eraseLines := by
  have hcontent : contentLines tightText = contentLines looseText := by decide +kernel
  have htight : yields (read .binary64 .standard tightText) (fun document =>
      document.diagnostics.map (·.line) == [some 2, some 5, some 6]) = true := by
    decide +kernel
  have hloose : yields (read .binary64 .standard looseText) (fun document =>
      document.diagnostics.map (·.line) == [some 4, some 10, some 12]) = true := by
    decide +kernel
  obtain ⟨document, hread, hlines⟩ := exists_of_yields htight
  obtain ⟨document', hread', hlines'⟩ := exists_of_yields hloose
  exact ⟨hcontent, document, document', hread, hread', beq_iff_eq.1 hlines, beq_iff_eq.1 hlines',
    (read_same_of_contentLines_eq .binary64 .standard hcontent).2 _ _ hread hread'⟩

end Document

end CueSheet
