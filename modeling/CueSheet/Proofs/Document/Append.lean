import CueSheet.Proofs.Document.Sections
import CueSheet.Proofs.Line
import CueSheet.Proofs.Text.Lines
import CueSheet.Proofs.Timeline.Append

/-!
# A section appended to a text

What a text says stays the same when a section is appended to it (`Document.read_append`). The start
of a section does what the end of the text does: it resolves the headers if that has not been done,
and closes the open section (`Document.step_sectionStart`). From there on sections are only added
behind those that are closed.
-/

namespace CueSheet.Document

variable {ρ : Rounding} {config : Config} {text more : List Char}

/-! ## Lines -/

/-- The lines of a text that is appended behind a line feed come behind those in front of it. -/
theorem linesOf_append (h : ∀ c ∈ text.getLast?, c = '\n') (hmark : more.head? ≠ some '\ufeff') :
    linesOf (text ++ more) = linesOf text ++ linesOf more := by
  rcases List.eq_nil_or_concat' text with rfl | ⟨front, c, rfl⟩
  · rfl
  · obtain rfl : c = '\n' := h c (by simp)
    have hfeed : ∀ c ∈ (Text.dropMarks front ++ ['\n']).getLast?, c = '\n' := by simp
    rw [linesOf, List.append_assoc, List.singleton_append,
      Text.dropMarks_append_cons (by decide) front more, ← List.singleton_append,
      ← List.append_assoc, Text.lines_append hfeed, List.map_append, linesOf, linesOf,
      Text.dropMarks_append_cons (by decide) front [], Text.dropMarks_eq_self hmark]

/-- A text whose first line is a start of a section does not start with a byte order mark. -/
theorem head?_ne_of_sectionStart {line : List Char} {others : List (List Char)} {label : String}
    (hlines : Text.lines more = line :: others) (hline : Line.ofText line = .sectionStart label) :
    more.head? ≠ some '\ufeff' := by
  intro hmark
  obtain ⟨rest, rfl⟩ := List.head?_eq_some_iff.1 hmark
  obtain ⟨line', others', hlines'⟩ :=
    Text.exists_lines_cons (c := '\ufeff') (by decide) (by decide) rest
  obtain ⟨rfl, -⟩ := List.cons.inj (hlines.symm.trans hlines')
  obtain ⟨lyric, hlyric⟩ := Line.ofText_mark line'
  rw [hlyric] at hline
  cases hline

/-! ## Reading -/

/-- A start of a section does what the end of the text does. -/
theorem step_sectionStart {reading next : Reading} {number : Int} {label : String}
    {diagnostics : List Diagnostic}
    (h : step ρ config reading number (.sectionStart label) = .ok (next, diagnostics)) :
    ∃ settings closed, next = .body settings closed ⟨label, number, []⟩ ∧
      finish ρ config reading = .ok ⟨toSong settings closed, diagnostics⟩ := by
  obtain ⟨⟨next', reports⟩, hread, h⟩ := bind_eq_ok.1 h
  obtain ⟨rfl, rfl⟩ := Prod.mk.inj (Except.ok.inj h)
  cases reading with
  | heading headers =>
    obtain ⟨⟨settings, resolved⟩, hresolve, hread⟩ := bind_eq_ok.1 hread
    obtain ⟨rfl, rfl⟩ := Prod.mk.inj (Except.ok.inj hread)
    refine ⟨settings, [], rfl, ?_⟩
    rw [finish, hresolve]
    rfl
  | body settings closed current =>
    obtain ⟨rfl, rfl⟩ := Prod.mk.inj (Except.ok.inj hread)
    exact ⟨settings, _, rfl, rfl⟩

/-- From an open section on, sections are added behind those that are closed. -/
theorem sections_of_run {settings : Settings} {closed : List Section} {current : OpenSection}
    {number : Int} {lines : List Line} {last : Reading} {diagnostics : List Diagnostic}
    {document : Document}
    (hrun : run ρ config (.body settings closed current) number lines = .ok (last, diagnostics))
    (hfinish : finish ρ config last = .ok document) :
    ∃ parts, document.song = toSong settings (closed ++ parts) := by
  obtain ⟨said, opens, -, -, hsong, -⟩ := closesAs_of_run hrun hfinish
  obtain ⟨parts, hparts, -⟩ := closeAll_sections closed
    ({ current with items := current.items ++ said.flatten } :: opens)
  exact ⟨parts, by rw [hsong, hparts]⟩

/-- A text to which a section is appended is read if the longer text is. Its song is that of the
longer text but for more sections behind its own, and what is reported on it comes first. -/
theorem exists_read_of_append {label : String} {lines : List Line} {whole : Document}
    (hlines : linesOf (text ++ more) = linesOf text ++ .sectionStart label :: lines)
    (h : read ρ config (text ++ more) = .ok whole) :
    ∃ document parts, read ρ config text = .ok document ∧
      whole.song = { document.song with sections := document.song.sections ++ parts } ∧
      document.diagnostics <+: whole.diagnostics := by
  rw [read, hlines, run_append] at h
  obtain ⟨⟨last, diagnostics⟩, hrun, h⟩ := bind_eq_ok.1 h
  obtain ⟨ended, hended, h⟩ := bind_eq_ok.1 h
  obtain rfl := pure_eq_ok_iff.1 h
  obtain ⟨⟨reading, before⟩, hfront, hrun⟩ := bind_eq_ok.1 hrun
  obtain ⟨⟨last', behind⟩, hbehind, hrun⟩ := bind_eq_ok.1 hrun
  obtain ⟨rfl, rfl⟩ := Prod.mk.inj (pure_eq_ok_iff.1 hrun)
  -- The appended section starts where the text in front would end.
  obtain ⟨⟨next, reports⟩, hstep, hbehind⟩ := bind_eq_ok.1 hbehind
  obtain ⟨⟨last'', others⟩, hrest, hbehind⟩ := bind_eq_ok.1 hbehind
  obtain ⟨rfl, rfl⟩ := Prod.mk.inj (pure_eq_ok_iff.1 hbehind)
  obtain ⟨settings, closed, rfl, hfinish⟩ := step_sectionStart hstep
  obtain ⟨parts, hsong⟩ := sections_of_run hrest hended
  refine ⟨⟨toSong settings closed, before ++ reports⟩, parts, ?_, hsong, ?_⟩
  · rw [read, hfront, ok_bind]
    dsimp only
    rw [hfinish]
    rfl
  · exact ⟨others ++ ended.diagnostics, by simp⟩

/-- Appending a section never changes what came before. If a text is read to which a section is
appended, the text itself is. The header fields of the longer song are those of the song, and its
sections begin with those of the song; what is reported on the text is reported first; and if the
longer song can be scheduled, so can the song, and its events are those of the longer song whose
place in the walk is below their number. -/
theorem read_append {line : List Char} {others : List (List Char)} {label : String}
    {whole : Document} (hfeed : ∀ c ∈ text.getLast?, c = '\n')
    (hlines : Text.lines more = line :: others) (hline : Line.ofText line = .sectionStart label)
    (h : read .binary64 config (text ++ more) = .ok whole) :
    ∃ document, read .binary64 config text = .ok document ∧
      (∃ parts, whole.song = { document.song with sections := document.song.sections ++ parts }) ∧
      document.diagnostics <+: whole.diagnostics ∧
      ∀ limit events, Timeline.scheduleAlone .binary64 limit whole.song = .ok events →
        ∃ front, Timeline.scheduleAlone .binary64 limit document.song = .ok front ∧
          events.filter (fun event => Timeline.orderIn event.payload < front.length) = front := by
  have hmark := head?_ne_of_sectionStart hlines hline
  have hwhole : linesOf (text ++ more) =
      linesOf text ++ .sectionStart label :: others.map Line.ofText := by
    rw [linesOf_append hfeed hmark, linesOf, linesOf, Text.dropMarks_eq_self hmark, hlines,
      List.map_cons, hline]
  obtain ⟨document, parts, hread, hsong, hdiagnostics⟩ := exists_read_of_append hwhole h
  refine ⟨document, hread, ⟨parts, hsong⟩, hdiagnostics, fun limit events hevents => ?_⟩
  rw [hsong] at hevents
  exact Timeline.scheduleAlone_of_append hevents

/-- A text with a cue that repeats, and with a section without content at its end. -/
def playedText : List Char := "@BPM 90\n(soft) la\n<hit duration=2b repeat=2>\n[Gap]\n".toList

/-- A section with a cue that starts while that of the text repeats. -/
def lateText : List Char := "[Intro]\n<light start_beat=1>\nla\n".toList

/-- With the section behind it the text is read to one section more, and its own events are the
first ones of the walk through the whole. -/
theorem read_append_playedText :
    (∀ c ∈ playedText.getLast?, c = '\n') ∧
      (∃ line others, Text.lines lateText = line :: others ∧
        Line.ofText line = .sectionStart "Intro") ∧
      ∃ document whole front events, read .binary64 .standard playedText = .ok document ∧
        read .binary64 .standard (playedText ++ lateText) = .ok whole ∧
        whole.song.sections.map (·.label) = ["Intro", "Intro"] ∧
        document.diagnostics <+: whole.diagnostics ∧
        Timeline.scheduleAlone .binary64 8 document.song = .ok front ∧
        Timeline.scheduleAlone .binary64 8 whole.song = .ok events ∧
        events.filter (fun event => Timeline.orderIn event.payload < front.length) = front := by
  have hlast : playedText.getLast? = some '\n' := by decide +kernel
  have hfeed : ∀ c ∈ playedText.getLast?, c = '\n' := by
    rw [hlast]
    rintro c ⟨⟩
    rfl
  have hlines : Text.lines lateText =
      ["[Intro]".toList, "<light start_beat=1>".toList, "la".toList] := by decide +kernel
  have hline : Line.ofText "[Intro]".toList = .sectionStart "Intro" := by decide +kernel
  have hwhole : yields (read .binary64 .standard (playedText ++ lateText)) (fun whole =>
      whole.song.sections.map (·.label) == ["Intro", "Intro"] &&
        Timeline.hasEvents .binary64 8 whole.song) = true := by decide +kernel
  obtain ⟨whole, hread, hcheck⟩ := exists_of_yields hwhole
  rw [Bool.and_eq_true, beq_iff_eq] at hcheck
  obtain ⟨events, hevents⟩ := Timeline.exists_of_hasEvents hcheck.2
  obtain ⟨document, hdocument, -, hdiagnostics, hsame⟩ := read_append hfeed hlines hline hread
  obtain ⟨front, hfront, hfilter⟩ := hsame 8 events hevents
  exact ⟨hfeed, ⟨_, _, hlines, hline⟩, document, whole, front, events, hdocument, hread, hcheck.1,
    hdiagnostics, hfront, hevents, hfilter⟩

end CueSheet.Document
