import CueSheet.Proofs.Document.Sections

/-!
# Reading reports errors about headers only

Whatever is wrong with the lines of a document, reading reports it with warnings: they are about the
form of lines and about sections without items. Errors come from the headers alone, where their
values are resolved (`errorsAre_of_read`).
-/

namespace CueSheet.Document

variable {ρ : Rounding} {config : Config} {settings : Settings} {closed : List Section}
  {current : OpenSection} {headers : Headers} {number : Int} {line : Line} {lines : List Line}
  {reading : Reading} {diagnostics : List Diagnostic} {document : Document}

/-- Diagnostics leave their document accepted. -/
def AreWarnings (diagnostics : List Diagnostic) : Prop := ∀ d ∈ diagnostics, d.isError = false

/-- Nothing is reported with warnings only. -/
theorem areWarnings_nil : AreWarnings [] := fun _ h => nomatch h

/-- Diagnostics are warnings if each of two parts of them is. -/
theorem AreWarnings.append {ds es : List Diagnostic} (hds : AreWarnings ds) (hes : AreWarnings es) :
    AreWarnings (ds ++ es) := List.forall_mem_append.2 ⟨hds, hes⟩

/-- Problems about the form of a line are reported with warnings. -/
theorem areWarnings_of_line {problems : List Problem} (line : Int)
    (h : ∀ problem ∈ problems, isLineProblem problem = true) :
    AreWarnings (problems.map (Diagnostic.onLine line)) := by
  refine List.forall_mem_map.2 fun problem hproblem => ?_
  simp [Diagnostic.isError, Diagnostic.onLine, severity_of_isLineProblem (h problem hproblem)]

/-- Closing a section reports warnings. -/
theorem areWarnings_close (closed : List Section) (current : OpenSection) :
    AreWarnings (close closed current).2 := by
  unfold close
  split
  · exact List.forall_mem_singleton.2 rfl
  · exact areWarnings_nil

/-- Adding the items of a line reports warnings, and leaves a section open. -/
theorem of_addItems (h : addItems ρ settings closed current number line = .ok (reading, diagnostics)) :
    AreWarnings diagnostics ∧ ∃ current', reading = .body settings closed current' := by
  obtain ⟨⟨items, problems⟩, hitems, h⟩ := bind_eq_ok.1 h
  obtain ⟨rfl, rfl⟩ := Prod.mk.inj (Except.ok.inj h)
  exact ⟨areWarnings_of_line _ (lineItems_problems hitems), _, rfl⟩

/-- Inside a section a line reports warnings, and leaves a section open. -/
theorem of_step_body
    (h : step ρ config (.body settings closed current) number line = .ok (reading, diagnostics)) :
    AreWarnings diagnostics ∧ ∃ closed' current', reading = .body settings closed' current' := by
  obtain ⟨⟨reading', reports⟩, hread, h⟩ := bind_eq_ok.1 h
  obtain ⟨rfl, rfl⟩ := Prod.mk.inj (Except.ok.inj h)
  have hfirst := areWarnings_of_line number (problem?_isLineProblem line)
  cases line with
  | blank =>
    obtain ⟨rfl, rfl⟩ := Prod.mk.inj (Except.ok.inj hread)
    exact ⟨hfirst.append areWarnings_nil, _, _, rfl⟩
  | header key value =>
    obtain ⟨rfl, rfl⟩ := Prod.mk.inj (Except.ok.inj hread)
    exact ⟨hfirst.append (List.forall_mem_singleton.2 rfl), _, _, rfl⟩
  | sectionStart label =>
    obtain ⟨rfl, rfl⟩ := Prod.mk.inj (Except.ok.inj hread)
    exact ⟨hfirst.append (areWarnings_close closed current), _, _, rfl⟩
  | performanceLyric | performance | cue | lyric =>
    obtain ⟨hreports, current', rfl⟩ := of_addItems hread
    exact ⟨hfirst.append hreports, _, _, rfl⟩

/-- From an open section on, lines report warnings, and leave a section open. -/
theorem of_run_body
    (h : run ρ config (.body settings closed current) number lines = .ok (reading, diagnostics)) :
    AreWarnings diagnostics ∧ ∃ closed' current', reading = .body settings closed' current' := by
  induction lines generalizing closed current number diagnostics with
  | nil =>
    obtain ⟨rfl, rfl⟩ := Prod.mk.inj (Except.ok.inj h)
    exact ⟨areWarnings_nil, _, _, rfl⟩
  | cons line lines ih =>
    obtain ⟨⟨next, ds⟩, hstep, h⟩ := bind_eq_ok.1 h
    obtain ⟨⟨last, more⟩, hrest, h⟩ := bind_eq_ok.1 h
    obtain ⟨rfl, rfl⟩ := Prod.mk.inj (Except.ok.inj h)
    obtain ⟨hds, closed', current', rfl⟩ := of_step_body hstep
    obtain ⟨hmore, hopen⟩ := ih hrest
    exact ⟨hds.append hmore, hopen⟩

/-- An open section that is finished is closed with warnings. -/
theorem areWarnings_finish (h : finish ρ config (.body settings closed current) = .ok document) :
    AreWarnings document.diagnostics := by
  obtain rfl := Except.ok.inj h
  exact areWarnings_close closed current

/-- Among warnings there are no errors. -/
theorem AreWarnings.filter_isError (h : AreWarnings diagnostics) :
    diagnostics.filter Diagnostic.isError = [] :=
  List.filter_eq_nil_iff.2 fun d hd => by simp [h d hd]

/-- The errors among diagnostics come from resolving headers. -/
def ErrorsAreOf (ρ : Rounding) (config : Config) (headers : Headers)
    (diagnostics : List Diagnostic) : Prop :=
  ∃ settings resolved, Settings.resolve ρ config headers = .ok (settings, resolved) ∧
    ∀ d ∈ diagnostics, d.isError = true → d ∈ resolved

/-- The errors among diagnostics are those of resolving headers, in order. -/
def ErrorsAre (ρ : Rounding) (config : Config) (headers : Headers)
    (diagnostics : List Diagnostic) : Prop :=
  ∃ settings resolved, Settings.resolve ρ config headers = .ok (settings, resolved) ∧
    diagnostics.filter Diagnostic.isError = resolved.filter Diagnostic.isError

/-- Errors that are those of resolving headers come from resolving headers. -/
theorem ErrorsAre.errorsAreOf (h : ErrorsAre ρ config headers diagnostics) :
    ErrorsAreOf ρ config headers diagnostics := by
  obtain ⟨settings, resolved, hresolve, herrors⟩ := h
  refine ⟨settings, resolved, hresolve, fun d hd herror => ?_⟩
  have hmem : d ∈ diagnostics.filter Diagnostic.isError := List.mem_filter.2 ⟨hd, herror⟩
  rw [herrors] at hmem
  exact List.mem_of_mem_filter hmem

/-- Warnings around diagnostics whose errors are those of headers are no errors. -/
theorem ErrorsAre.append {before ds after : List Diagnostic} (hbefore : AreWarnings before)
    (h : ErrorsAre ρ config headers ds) (hafter : AreWarnings after) :
    ErrorsAre ρ config headers (before ++ (ds ++ after)) := by
  obtain ⟨settings, resolved, hresolve, hds⟩ := h
  refine ⟨settings, resolved, hresolve, ?_⟩
  rw [List.filter_append, List.filter_append, hbefore.filter_isError, hafter.filter_isError, hds,
    List.nil_append, List.append_nil]

/-- A line that ends the heading reports errors about headers only. -/
theorem errorsAre_of_leaveHeading
    (h : leaveHeading ρ config headers number line = .ok (reading, diagnostics)) :
    ErrorsAre ρ config headers diagnostics ∧
      ∃ settings closed current, reading = .body settings closed current := by
  obtain ⟨⟨settings, resolved⟩, hresolve, h⟩ := bind_eq_ok.1 h
  have hresolved : ErrorsAre ρ config headers resolved :=
    ⟨settings, resolved, hresolve, rfl⟩
  dsimp only at h
  split at h
  · obtain ⟨rfl, rfl⟩ := Prod.mk.inj (Except.ok.inj h)
    exact ⟨hresolved, _, _, _, rfl⟩
  · obtain ⟨⟨opened, more⟩, hadd, h⟩ := bind_eq_ok.1 h
    obtain ⟨rfl, rfl⟩ := Prod.mk.inj (Except.ok.inj h)
    obtain ⟨hmore, current', rfl⟩ := of_addItems hadd
    exact ⟨hresolved.append areWarnings_nil hmore, _, _, _, rfl⟩

/-- A step in the heading takes a line in with warnings, or leaves the heading. -/
theorem of_step_heading
    (h : step ρ config (.heading headers) number line = .ok (reading, diagnostics)) :
    (isContent line = false ∧ startsSection line = false ∧
        reading = .heading (takeIn headers (number, line)) ∧ AreWarnings diagnostics) ∨
      ((isContent line = true ∨ startsSection line = true) ∧ ErrorsAre ρ config headers diagnostics ∧
        ∃ settings closed current, reading = .body settings closed current) := by
  obtain ⟨⟨reading', reports⟩, hread, h⟩ := bind_eq_ok.1 h
  obtain ⟨rfl, rfl⟩ := Prod.mk.inj (Except.ok.inj h)
  have hfirst := areWarnings_of_line number (problem?_isLineProblem line)
  -- All lines that are neither blank nor headers leave the heading alike.
  have hleave (hread : leaveHeading ρ config headers number line = .ok (reading', reports)) :
      ErrorsAre ρ config headers
          (line.problem?.toList.map (Diagnostic.onLine number) ++ reports) ∧
        ∃ settings closed current, reading' = .body settings closed current := by
    obtain ⟨herrors, hopen⟩ := errorsAre_of_leaveHeading hread
    refine ⟨?_, hopen⟩
    simpa using herrors.append hfirst areWarnings_nil
  cases line with
  | blank =>
    obtain ⟨rfl, rfl⟩ := Prod.mk.inj (Except.ok.inj hread)
    exact .inl ⟨rfl, rfl, rfl, hfirst.append areWarnings_nil⟩
  | header key value =>
    obtain ⟨rfl, rfl⟩ := Prod.mk.inj (Except.ok.inj hread)
    exact .inl ⟨rfl, rfl, rfl, hfirst.append
      (areWarnings_of_line number (headers_add_problems headers key value number))⟩
  | sectionStart | performanceLyric | performance | cue | lyric =>
    exact .inr ⟨by simp [isContent, startsSection], hleave hread⟩

/-- The errors that are reported from the heading on are those of resolving the headers. The
induction is on the lines, up to the one that leaves the heading. -/
theorem errorsAre_of_run
    (hrun : run ρ config (.heading headers) number lines = .ok (reading, diagnostics))
    (hfinish : finish ρ config reading = .ok document) :
    ErrorsAre ρ config (headersFrom headers (numbered number lines))
      (diagnostics ++ document.diagnostics) := by
  induction lines generalizing headers number diagnostics with
  | nil =>
    obtain ⟨rfl, rfl⟩ := Prod.mk.inj (Except.ok.inj hrun)
    obtain ⟨⟨settings, resolved⟩, hresolve, h⟩ := bind_eq_ok.1 hfinish
    obtain rfl := Except.ok.inj h
    exact ⟨settings, resolved, hresolve, rfl⟩
  | cons line lines ih =>
    obtain ⟨⟨next, ds⟩, hstep, hrun⟩ := bind_eq_ok.1 hrun
    obtain ⟨⟨last, more⟩, hrest, hrun⟩ := bind_eq_ok.1 hrun
    obtain ⟨rfl, rfl⟩ := Prod.mk.inj (Except.ok.inj hrun)
    rw [numbered]
    rcases of_step_heading hstep with
      ⟨hcontent, hstart, rfl, hds⟩ | ⟨hline, hds, settings, closed, current, rfl⟩
    · rw [headersFrom_cons_other headers _ hcontent hstart]
      have hmore := (ih hrest).append hds areWarnings_nil
      simpa [List.append_assoc] using hmore
    · -- The headers are resolved here, and the lines behind this one report no errors.
      have hheaders : headersFrom headers ((number, line) :: numbered (number + 1) lines) =
          headers := by
        rcases hline with hcontent | hstart
        · exact headersFrom_cons_content headers _ hcontent
        · exact headersFrom_cons_sectionStart headers _ hstart
      obtain ⟨hmore, closed', current', rfl⟩ := of_run_body hrest
      have hlast := hmore.append (areWarnings_finish hfinish)
      rw [hheaders, List.append_assoc]
      simpa using hds.append areWarnings_nil hlast

/-- The errors that reading a document reports are those of resolving its headers. -/
theorem errorsAre_of_read {text : List Char} (h : read ρ config text = .ok document) :
    ErrorsAre ρ config (headersOf (numberedLines text)) document.diagnostics := by
  obtain ⟨⟨reading, before⟩, hrun, h⟩ := bind_eq_ok.1 h
  obtain ⟨ended, hfinish, h⟩ := bind_eq_ok.1 h
  obtain rfl := Except.ok.inj h
  exact errorsAre_of_run hrun hfinish

/-- The errors that reading a document reports come from resolving its headers. -/
theorem errorsAreOf_of_read {text : List Char} (h : read ρ config text = .ok document) :
    ErrorsAreOf ρ config (headersOf (numberedLines text)) document.diagnostics :=
  (errorsAre_of_read h).errorsAreOf

end CueSheet.Document
