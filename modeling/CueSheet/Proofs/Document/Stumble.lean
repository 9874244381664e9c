import CueSheet.Proofs.Cue.Stumble
import CueSheet.Proofs.Document.Sections
import CueSheet.Proofs.Header.Sound
import CueSheet.Proofs.Header.Stumble

/-!
# Where the reading of a document fails

A line fails to be read only if it is a cue that cannot be read, or if the headers are resolved on
it and cannot be. So the reading of a document fails exactly if its headers stumble, or if they are
resolved and one of the cues stumbles at their number of beats in a bar (`fails_read_iff`). In any
other document all that is malformed is read as something or becomes a diagnostic.
-/

namespace CueSheet.Document

variable {config : Config} {settings : Settings} {closed : List Section} {current : OpenSection}
  {headers : Headers} {number : Int} {line : Line} {lines : List Line} {reading : Reading}
  {diagnostics : List Diagnostic}

/-- A line cannot be read: it is a cue that cannot be. -/
def LineStumbles (settings : Settings) (line : Line) : Prop :=
  ∃ body, line = .cue body ∧ CueStumbles settings.beatsPerBar body

/-- A document cannot be read: its headers stumble, or one of its cues does. -/
def Stumbles (config : Config) (text : List Char) : Prop :=
  Settings.HeadersStumble (headersOf (numberedLines text)) ∨
    ∃ settings resolved,
      Settings.resolve .binary64 config (headersOf (numberedLines text)) =
        .ok (settings, resolved) ∧
      ∃ line ∈ linesOf text, LineStumbles settings line

/-- The items of a line fail to be read exactly if the line stumbles. -/
theorem fails_lineItems_iff (hsound : settings.IsSound) :
    Fails (lineItems .binary64 settings number line) ↔ LineStumbles settings line := by
  cases line with
  | cue body =>
    have hpositive := Number.isPositive_of_isTempo hsound.bpm
    have hcue : LineStumbles settings (.cue body) ↔ CueStumbles settings.beatsPerBar body := by
      simp [LineStumbles]
    rw [hcue, ← CueBody.fails_read_iff hpositive hsound.kept]
    exact fails_bind_of_total fun _ _ => not_fails_pure _
  | blank | header | sectionStart | performanceLyric | performance | lyric =>
    simp [lineItems, LineStumbles]

/-- The items of a line fail to be added exactly if the line stumbles. -/
theorem fails_addItems_iff (hsound : settings.IsSound) :
    Fails (addItems .binary64 settings closed current number line) ↔
      LineStumbles settings line := by
  rw [← fails_lineItems_iff hsound]
  exact fails_bind_of_total fun _ _ => not_fails_pure _

/-- A step fails exactly if its line does: what it reports fails nothing. -/
theorem fails_step_iff_readLine :
    Fails (step .binary64 config reading number line) ↔
      Fails (readLine .binary64 config reading number line) :=
  fails_bind_of_total fun _ _ => not_fails_pure _

/-- Lines fail to be read or to be finished exactly if the first one fails, or those behind it do. -/
theorem fails_run_cons_iff :
    Fails (run .binary64 config reading number (line :: lines) >>= fun last =>
        finish .binary64 config last.1) ↔
      Fails (step .binary64 config reading number line >>= fun next =>
        run .binary64 config next.1 (number + 1) lines >>= fun last =>
          finish .binary64 config last.1) := by
  simp [run]

/-- Inside a section a line fails to be read exactly if it stumbles. -/
theorem fails_step_iff (hsound : settings.IsSound) :
    Fails (step .binary64 config (.body settings closed current) number line) ↔
      LineStumbles settings line := by
  rw [fails_step_iff_readLine]
  cases line with
  | blank | header | sectionStart => simp [readLine, LineStumbles]
  | performanceLyric | performance | cue | lyric => exact fails_addItems_iff hsound

/-- Inside a section a line leaves a section open, and the settings are the same. -/
theorem exists_body_of_step
    (h : step .binary64 config (.body settings closed current) number line =
      .ok (reading, diagnostics)) :
    ∃ closed' current', reading = .body settings closed' current' := by
  cases bodyStep_of_step h with
  | content | sectionStart | other => exact ⟨_, _, rfl⟩

/-- From an open section on, lines fail to be read or to be finished exactly if one of them
stumbles. -/
theorem fails_body_iff (hsound : settings.IsSound) :
    Fails (run .binary64 config (.body settings closed current) number lines >>= fun last =>
        finish .binary64 config last.1) ↔
      ∃ line ∈ lines, LineStumbles settings line := by
  induction lines generalizing closed current number with
  | nil => simp [run, finish_body]
  | cons line lines ih =>
    rw [fails_run_cons_iff, fails_bind_iff, fails_step_iff hsound]
    simp only [List.mem_cons, exists_eq_or_imp]
    refine or_congr_right' fun hline => ?_
    have hreads : ¬Fails (step .binary64 config (.body settings closed current) number line) :=
      (fails_step_iff hsound).not.2 hline
    obtain ⟨⟨next, reports⟩, hstep⟩ := not_fails_iff.1 hreads
    obtain ⟨closed', current', rfl⟩ := exists_body_of_step hstep
    simp only [hstep, Except.ok.injEq, exists_eq_left', ih]

/-- A line that ends the heading fails to be read exactly if the headers stumble, or if it stumbles
at the settings that they are resolved to. -/
theorem fails_heading_step_iff (hconfig : config.IsKept)
    (hline : isContent line = true ∨ startsSection line = true) :
    Fails (step .binary64 config (.heading headers) number line) ↔
      Settings.HeadersStumble headers ∨
        ∃ settings resolved, Settings.resolve .binary64 config headers = .ok (settings, resolved) ∧
          LineStumbles settings line := by
  have hstep : Fails (step .binary64 config (.heading headers) number line) ↔
      Fails (leaveHeading .binary64 config headers number line) := by
    rw [fails_step_iff_readLine]
    cases line with
    | blank | header => simp [isContent, startsSection] at hline
    | sectionStart | performanceLyric | performance | cue | lyric => rfl
  rw [hstep, leaveHeading, fails_bind_iff, Settings.fails_resolve_iff]
  refine or_congr_right' fun hheaders => ?_
  simp only [Prod.exists]
  refine exists_congr fun settings => exists_congr fun resolved => and_congr_right fun hresolve => ?_
  have hsound := Settings.isSound_of_resolve hconfig hresolve
  cases line with
  | blank | header => simp [isContent, startsSection] at hline
  | sectionStart => simp [LineStumbles]
  | performanceLyric | performance | cue | lyric =>
    dsimp only
    rw [fails_bind_of_total fun _ _ => not_fails_pure _]
    exact fails_addItems_iff hsound

/-- A line that is taken in is read. -/
theorem heading_step_of_other (hcontent : isContent line = false)
    (hstart : startsSection line = false) :
    ∃ reports, step .binary64 config (.heading headers) number line =
      .ok (.heading (takeIn headers (number, line)), reports) := by
  cases line with
  | blank => exact ⟨_, rfl⟩
  | header => exact ⟨_, rfl⟩
  | sectionStart => simp [startsSection] at hstart
  | performanceLyric | performance | cue | lyric => simp [isContent] at hcontent

/-- A line that ends the heading leaves a section open, at the settings that the headers are resolved
to. -/
theorem exists_body_of_heading_step {resolved : List Diagnostic}
    (hline : isContent line = true ∨ startsSection line = true)
    (hresolve : Settings.resolve .binary64 config headers = .ok (settings, resolved))
    (h : step .binary64 config (.heading headers) number line = .ok (reading, diagnostics)) :
    ∃ closed current, reading = .body settings closed current := by
  cases headingStep_of_step h with
  | content settings' items _ hresolve' =>
    obtain ⟨rfl, -⟩ := Prod.mk.inj (Except.ok.inj (hresolve.symm.trans hresolve'))
    exact ⟨_, _, rfl⟩
  | sectionStart label settings' hresolve' =>
    obtain ⟨rfl, -⟩ := Prod.mk.inj (Except.ok.inj (hresolve.symm.trans hresolve'))
    exact ⟨_, _, rfl⟩
  | other hcontent hstart => simp [hcontent, hstart] at hline

/-- The headers are resolved to one thing only. -/
theorem exists_resolved_iff {P : Settings → Prop} {resolved : List Diagnostic}
    (hresolve : Settings.resolve .binary64 config headers = .ok (settings, resolved)) :
    (∃ settings' resolved', Settings.resolve .binary64 config headers =
      .ok (settings', resolved') ∧ P settings') ↔ P settings := by
  simp [hresolve]

/-- From the line that ends the heading on, lines fail to be read or to be finished exactly if the
headers stumble, or if one of the lines stumbles at the settings that they are resolved to. -/
theorem fails_ended_heading_iff (hconfig : config.IsKept)
    (hline : isContent line = true ∨ startsSection line = true) :
    Fails (step .binary64 config (.heading headers) number line >>= fun next =>
        run .binary64 config next.1 (number + 1) lines >>= fun last =>
          finish .binary64 config last.1) ↔
      Settings.HeadersStumble headers ∨
        ∃ settings resolved, Settings.resolve .binary64 config headers = .ok (settings, resolved) ∧
          ∃ other ∈ line :: lines, LineStumbles settings other := by
  rw [fails_bind_iff, fails_heading_step_iff hconfig hline, or_assoc]
  refine or_congr_right' fun hresolves => ?_
  have hok : ¬Fails (Settings.resolve .binary64 config headers) :=
    Settings.fails_resolve_iff.not.2 hresolves
  obtain ⟨⟨settings, resolved⟩, hresolve⟩ := not_fails_iff.1 hok
  have hsound := Settings.isSound_of_resolve hconfig hresolve
  rw [exists_resolved_iff hresolve, exists_resolved_iff hresolve]
  simp only [List.mem_cons, exists_eq_or_imp]
  refine or_congr_right' fun hfirst => ?_
  -- The line is read, so the lines behind it are read with a section open.
  have hreads : ¬Fails (step .binary64 config (.heading headers) number line) := by
    rw [fails_heading_step_iff hconfig hline, exists_resolved_iff hresolve]
    exact not_or.2 ⟨hresolves, hfirst⟩
  obtain ⟨⟨next, reports⟩, hstep⟩ := not_fails_iff.1 hreads
  obtain ⟨closed, current, rfl⟩ := exists_body_of_heading_step hline hresolve hstep
  simp only [hstep, Except.ok.injEq, exists_eq_left', fails_body_iff hsound]

/-- From the heading on, lines fail to be read or to be finished exactly if the headers stumble, or
if one of the lines stumbles at the settings that they are resolved to. -/
theorem fails_heading_iff (hconfig : config.IsKept) :
    Fails (run .binary64 config (.heading headers) number lines >>= fun last =>
        finish .binary64 config last.1) ↔
      Settings.HeadersStumble (headersFrom headers (numbered number lines)) ∨
        ∃ settings resolved,
          Settings.resolve .binary64 config (headersFrom headers (numbered number lines)) =
            .ok (settings, resolved) ∧
          ∃ line ∈ lines, LineStumbles settings line := by
  induction lines generalizing headers number with
  | nil =>
    have hfinish : Fails (finish .binary64 config (.heading headers)) ↔
        Settings.HeadersStumble headers := by
      rw [← Settings.fails_resolve_iff]
      exact fails_bind_of_total fun _ _ => not_fails_pure _
    simpa [run, numbered] using hfinish
  | cons line lines ih =>
    rw [fails_run_cons_iff]
    by_cases hline : isContent line = true ∨ startsSection line = true
    · -- The line ends the heading, so the headers are those before it.
      have hheaders : headersFrom headers (numbered number (line :: lines)) = headers := by
        rcases hline with h | h
        · exact headersFrom_cons_content headers _ h
        · exact headersFrom_cons_sectionStart headers _ h
      rw [hheaders]
      exact fails_ended_heading_iff hconfig hline
    · -- The line is taken in, and no line of the heading stumbles.
      rw [not_or, Bool.not_eq_true, Bool.not_eq_true] at hline
      have hnot : ∀ settings, ¬LineStumbles settings line := by
        rintro settings ⟨body, rfl, -⟩
        simp [isContent] at hline
      obtain ⟨reports, hstep⟩ : ∃ reports, step .binary64 config (.heading headers) number line =
          .ok (.heading (takeIn headers (number, line)), reports) :=
        heading_step_of_other hline.1 hline.2
      rw [hstep, ok_bind, ih, numbered, headersFrom_cons_other headers _ hline.1 hline.2]
      simp only [List.mem_cons, exists_eq_or_imp, hnot, false_or]

/-- A document fails to be read exactly if it stumbles. -/
theorem fails_read_iff {text : List Char} (hconfig : config.IsKept) :
    Fails (read .binary64 config text) ↔ Stumbles config text := by
  have hread : Fails (read .binary64 config text) ↔
      Fails (run .binary64 config (.heading []) 1 (linesOf text) >>= fun last =>
        finish .binary64 config last.1) := by
    unfold read
    rw [fails_bind_iff, fails_bind_iff]
    simp [fails_map_iff]
  rw [hread, fails_heading_iff hconfig]
  rfl

end CueSheet.Document
