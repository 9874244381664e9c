import CueSheet.Proofs.Agree
import CueSheet.Proofs.Document.Layout
import CueSheet.Proofs.Document.Lines
import CueSheet.Proofs.Lists
import CueSheet.Proofs.Text.Lines

/-!
# The order of headers does not matter

The headers of a text may stand in any order in which those under one name keep theirs
(`Document.read_same_of_reorders`). What a heading comes to is a collection of headers and a list of
problems (`Headers.addAll`), numbers of lines aside. Two neighbours with different names may change
places: each finds the same header under its key as before, so the same lines are reported, and the
same header stands under each key in the end (`Headers.addAll_shuffled`). Where in the collection it
stands makes no difference to what the headers are resolved to, so from headings that are alike on
the two texts are read in step (`Document.run_agree`).
-/

namespace CueSheet

/-! ## Names of headers -/

/-- The name under which a header counts: that of its key if it is known, and its own otherwise. -/
def HeaderKey.countedAs (name : String) : String :=
  ((HeaderKey.ofName? name).map HeaderKey.name).getD name

/-- The name under which a line counts as a header, if it is one. -/
def Line.headerName? : Line → Option String
  | .header name _ => some (HeaderKey.countedAs name)
  | _ => none

/-- Names that count as different ones do not have one key. -/
theorem HeaderKey.ne_of_countedAs_ne {name other : String}
    (h : countedAs name ≠ countedAs other) {key : HeaderKey} (hname : ofName? name = some key) :
    ofName? other ≠ some key := by
  intro hother
  rw [countedAs, countedAs, hname, hother] at h
  exact h rfl

namespace Headers

variable {headers headers' : Headers}

/-- Two collections have the same header under each key. -/
def Alike (headers headers' : Headers) : Prop := ∀ key, headers.get? key = headers'.get? key

/-- The header under a key once a line has been taken in: the one that was there, or that of the
line.
-/
theorem get?_add (headers : Headers) (name value : String) (line : Int) (key : HeaderKey) :
    (headers.add name value line).1.get? key =
      (headers.get? key).or
        (if HeaderKey.ofName? name = some key then some ⟨key, value, line⟩ else none) := by
  unfold add
  cases hname : HeaderKey.ofName? name with
  | none => simp
  | some found =>
    dsimp only
    by_cases hkey : found = key
    · subst hkey
      cases hfirst : headers.get? found with
      | none => simp [get?_concat, hfirst]
      | some first => simp [hfirst]
    · cases headers.get? found with
      | none => simp [get?_concat, hkey]
      | some first => simp [hkey]

/-- What a header line is reported for depends on the header under its key alone. -/
theorem add_problems_eq (name value : String) (line : Int)
    (h : ∀ key, HeaderKey.ofName? name = some key → headers.get? key = headers'.get? key) :
    (headers.add name value line).2 = (headers'.add name value line).2 := by
  unfold add
  cases hname : HeaderKey.ofName? name with
  | none => rfl
  | some key =>
    dsimp only
    rw [h key hname]
    cases headers'.get? key <;> rfl

/-- A line is taken in alike. -/
theorem Alike.add (h : headers.Alike headers') (name value : String) (line : Int) :
    (headers.add name value line).1.Alike (headers'.add name value line).1 := fun key => by
  rw [get?_add, get?_add, h key]

/-- It makes no difference which of two lines with names that count as different ones is taken in
first. -/
theorem add_comm (headers : Headers) {name other : String}
    (h : HeaderKey.countedAs name ≠ HeaderKey.countedAs other) (value value' : String)
    (line : Int) :
    ((headers.add name value line).1.add other value' line).1.Alike
      ((headers.add other value' line).1.add name value line).1 := by
  intro key
  simp only [get?_add, Option.or_assoc]
  by_cases hname : HeaderKey.ofName? name = some key
  · have hother := HeaderKey.ne_of_countedAs_ne h hname
    simp [hname, hother]
  · simp [hname]

/-- A line is reported alike before and after a line with a name that counts as another one. -/
theorem add_problems_comm (headers : Headers) {name other : String}
    (h : HeaderKey.countedAs name ≠ HeaderKey.countedAs other) (value value' : String)
    (line : Int) :
    ((headers.add name value line).1.add other value' line).2 =
      (headers.add other value' line).2 := by
  refine add_problems_eq other value' line fun key hother => ?_
  rw [get?_add, if_neg (HeaderKey.ne_of_countedAs_ne h.symm hother), Option.or_none]

/-! ## A whole heading -/

/-- Takes in the header lines among lines, without regard to their numbers. -/
def addAll (headers : Headers) : List Line → Headers × List Problem
  | [] => (headers, [])
  | .header name value :: lines =>
    let (next, problems) := headers.add name value 0
    let (last, more) := addAll next lines
    (last, problems ++ more)
  | _ :: lines => addAll headers lines

/-- A line that is no header is passed over. -/
theorem addAll_cons_of_none {line : Line} (h : line.headerName? = none) (lines : List Line) :
    headers.addAll (line :: lines) = headers.addAll lines := by
  cases line with
  | header => cases h
  | blank | sectionStart | performanceLyric | performance | cue | lyric => rfl

/-- A line that is a header is taken in. -/
theorem addAll_cons_of_some {line : Line} {name : String} (h : line.headerName? = some name) :
    ∃ written value, line = .header written value ∧ HeaderKey.countedAs written = name ∧
      ∀ (headers : Headers) (lines : List Line),
        headers.addAll (line :: lines) =
          (((headers.add written value 0).1.addAll lines).1,
            (headers.add written value 0).2 ++
              ((headers.add written value 0).1.addAll lines).2) := by
  cases line with
  | header written value => exact ⟨written, value, rfl, Option.some.inj h, fun _ _ => rfl⟩
  | blank | sectionStart | performanceLyric | performance | cue | lyric => cases h

/-- Only header lines count. -/
theorem addAll_filter (headers : Headers) (lines : List Line) :
    headers.addAll (lines.filter (·.headerName?.isSome)) = headers.addAll lines := by
  induction lines generalizing headers with
  | nil => rfl
  | cons line lines ih =>
    cases hname : line.headerName? with
    | none => rw [List.filter_cons_of_neg (by simp [hname]), addAll_cons_of_none hname, ih]
    | some name =>
      obtain ⟨written, value, -, -, hadd⟩ := addAll_cons_of_some hname
      rw [List.filter_cons_of_pos (by simp [hname]), hadd, hadd, ih]

/-- Lines are taken in alike. -/
theorem Alike.addAll (h : headers.Alike headers') (lines : List Line) :
    (headers.addAll lines).1.Alike (headers'.addAll lines).1 ∧
      (headers.addAll lines).2 = (headers'.addAll lines).2 := by
  induction lines generalizing headers headers' with
  | nil => exact ⟨h, rfl⟩
  | cons line lines ih =>
    cases hname : line.headerName? with
    | none =>
      rw [addAll_cons_of_none hname, addAll_cons_of_none hname]
      exact ih h
    | some name =>
      obtain ⟨written, value, -, -, hadd⟩ := addAll_cons_of_some hname
      obtain ⟨hlast, hmore⟩ := ih (h.add written value 0)
      rw [hadd, hadd, hmore, add_problems_eq written value 0 fun key _ => h key]
      exact ⟨hlast, rfl⟩

/-- Neighbours with different names, or one of which is no header, are taken in alike in either order.
-/
theorem addAll_swap {line other : Line} (hne : line.headerName? ≠ other.headerName?)
    (headers : Headers) (lines : List Line) :
    (headers.addAll (line :: other :: lines)).1.Alike
        (headers.addAll (other :: line :: lines)).1 ∧
      (headers.addAll (line :: other :: lines)).2.Perm
        (headers.addAll (other :: line :: lines)).2 := by
  cases hline : line.headerName? with
  | none =>
    -- A line that is no header leaves nothing, wherever it stands.
    cases hother : other.headerName? with
    | none => exact absurd (hline.trans hother.symm) hne
    | some name =>
      obtain ⟨written, value, -, -, hadd⟩ := addAll_cons_of_some hother
      rw [addAll_cons_of_none hline, hadd, hadd, addAll_cons_of_none hline]
      exact ⟨fun _ => rfl, .refl _⟩
  | some name =>
    obtain ⟨written, value, -, rfl, hadd⟩ := addAll_cons_of_some hline
    cases hother : other.headerName? with
    | none =>
      rw [addAll_cons_of_none hother, hadd, hadd, addAll_cons_of_none hother]
      exact ⟨fun _ => rfl, .refl _⟩
    | some name' =>
      obtain ⟨written', value', -, rfl, hadd'⟩ := addAll_cons_of_some hother
      rw [hline, hother] at hne
      have hcounted := fun h => hne (congrArg some h)
      obtain ⟨hlast, hmore⟩ := (headers.add_comm hcounted value value' 0).addAll lines
      rw [hadd, hadd', hadd', hadd]
      refine ⟨hlast, ?_⟩
      dsimp only
      rw [headers.add_problems_comm hcounted, headers.add_problems_comm (Ne.symm hcounted), hmore,
        ← List.append_assoc, ← List.append_assoc]
      exact List.perm_append_comm.append_right _

/-- Lines are taken in alike in every order that keeps the headers under each name in order. -/
theorem addAll_shuffled {lines lines' : List Line} (h : Shuffled Line.headerName? lines lines')
    (headers : Headers) :
    (headers.addAll lines).1.Alike (headers.addAll lines').1 ∧
      (headers.addAll lines).2.Perm (headers.addAll lines').2 := by
  induction h generalizing headers with
  | nil => exact ⟨fun _ => rfl, .refl _⟩
  | cons line _ ih =>
    cases hname : line.headerName? with
    | none =>
      rw [addAll_cons_of_none hname, addAll_cons_of_none hname]
      exact ih headers
    | some name =>
      obtain ⟨written, value, -, -, hadd⟩ := addAll_cons_of_some hname
      obtain ⟨hlast, hmore⟩ := ih (headers.add written value 0).1
      rw [hadd, hadd]
      exact ⟨hlast, hmore.append_left _⟩
  | swap lines hne => exact addAll_swap hne headers lines
  | trans _ _ ih ih' =>
    obtain ⟨hlast, hmore⟩ := ih headers
    obtain ⟨hlast', hmore'⟩ := ih' headers
    exact ⟨fun key => (hlast key).trans (hlast' key), hmore.trans hmore'⟩

end Headers

/-! ## Reading on from headings that are alike -/

namespace Settings

variable {ρ : Rounding} {config : Config} {headers headers' : Headers}

/-- What headers are resolved to depends on the header under each key alone. -/
theorem resolve_congr (ρ : Rounding) (config : Config) (h : headers.Alike headers') :
    resolve ρ config headers = resolve ρ config headers' := by
  have hget : headers.get? = headers'.get? := funext h
  unfold resolve readIfPresent
  rw [hget]

/-- Headers that are alike but for the numbers of their lines are resolved to the same settings. -/
theorem resolve_agree
    (h : Headers.Alike (headers.map Header.eraseLine) (headers'.map Header.eraseLine)) :
    Agree Eq (fun result result' => result.1 = result'.1 ∧
        result.2.map Diagnostic.eraseLines = result'.2.map Diagnostic.eraseLines)
      (resolve ρ config headers) (resolve ρ config headers') := by
  have herased := resolve_congr ρ config h
  rw [resolve_eraseLine, resolve_eraseLine] at herased
  exact (Agree.of_map_eq herased).mono fun _ _ hresult => Prod.mk.inj hresult

end Settings

/-- Two readings are the same but for the places and the numbers of their headers. -/
inductive Reading.Alike : Reading → Reading → Prop where
  /-- Both are in the heading, with the same header under each key. -/
  | heading {headers headers' : Headers}
    (h : Headers.Alike (headers.map Header.eraseLine) (headers'.map Header.eraseLine)) :
    Alike (.heading headers) (.heading headers')
  /-- In both a section is open. -/
  | body (settings : Settings) (closed : List Section) (current : OpenSection) :
    Alike (.body settings closed current) (.body settings closed current)

/-- A reading is like itself. -/
theorem Reading.Alike.refl : ∀ reading : Reading, reading.Alike reading
  | .heading _ => .heading fun _ => rfl
  | .body settings closed current => .body settings closed current

/-- Two results of reading are alike, and their diagnostics are the same but for numbers of lines.
-/
structure Reading.ResultsAlike (result result' : Reading × List Diagnostic) : Prop where
  /-- The readings are alike. -/
  reading : result.1.Alike result'.1
  /-- The diagnostics are the same but for numbers of lines. -/
  diagnostics : result.2.map Diagnostic.eraseLines = result'.2.map Diagnostic.eraseLines

namespace Document

variable {ρ : Rounding} {config : Config} {headers headers' : Headers} {reading reading' : Reading}

/-- The same step after diagnostics that are the same but for numbers of lines. -/
theorem resultsAlike_append {diagnostics diagnostics' : List Diagnostic}
    (h : diagnostics.map Diagnostic.eraseLines = diagnostics'.map Diagnostic.eraseLines)
    {result result' : Reading × List Diagnostic} (hresult : Reading.ResultsAlike result result') :
    Reading.ResultsAlike (result.1, diagnostics ++ result.2)
      (result'.1, diagnostics' ++ result'.2) :=
  ⟨hresult.reading, by rw [List.map_append, List.map_append, h, hresult.diagnostics]⟩

/-- A line ends headings that are alike alike. -/
theorem leaveHeading_agree
    (h : Headers.Alike (headers.map Header.eraseLine) (headers'.map Header.eraseLine))
    (number : Int) (line : Line) :
    Agree Eq Reading.ResultsAlike (leaveHeading ρ config headers number line)
      (leaveHeading ρ config headers' number line) := by
  refine (Settings.resolve_agree h).bind ?_
  rintro ⟨settings, diagnostics⟩ ⟨settings', diagnostics'⟩ ⟨rfl, hdiagnostics⟩
  have hadd : Agree Eq Reading.ResultsAlike
      (addItems ρ settings [] ⟨implicitLabel, number, []⟩ number line)
      (addItems ρ settings [] ⟨implicitLabel, number, []⟩ number line) :=
    .refl fun _ _ => ⟨.refl _, rfl⟩
  cases line with
  | sectionStart label => exact .ok ⟨.body _ _ _, hdiagnostics⟩
  | blank | header | performanceLyric | performance | cue | lyric =>
    exact hadd.bind fun _ _ hresult => .ok (resultsAlike_append hdiagnostics hresult)

/-- A header line is taken in alike. -/
theorem takeIn_alike
    (h : Headers.Alike (headers.map Header.eraseLine) (headers'.map Header.eraseLine))
    (name value : String) (number : Int) :
    Reading.ResultsAlike
      (.heading (headers.add name value number).1,
        (headers.add name value number).2.map (.onLine number))
      (.heading (headers'.add name value number).1,
        (headers'.add name value number).2.map (.onLine number)) := by
  have hadd := h.add name value 0
  have hproblems := Headers.add_problems_eq name value 0 fun key _ => h key
  rw [Headers.add_eraseLine headers name value number,
    Headers.add_eraseLine headers' name value number] at hadd hproblems
  refine ⟨.heading hadd, ?_⟩
  simpa [Function.comp_def, Diagnostic.eraseLines_onLine] using
    congrArg (List.map (Diagnostic.onLine 0)) hproblems

/-- Readings that are alike go on alike with the same line. -/
theorem step_agree (h : reading.Alike reading') (number : Int) (line : Line) :
    Agree Eq Reading.ResultsAlike (step ρ config reading number line)
      (step ρ config reading' number line) := by
  cases h with
  | body settings closed current => exact .refl fun _ _ => ⟨.refl _, rfl⟩
  | @heading headers headers' h =>
    have hleave : Agree Eq Reading.ResultsAlike (leaveHeading ρ config headers number line)
        (leaveHeading ρ config headers' number line) := leaveHeading_agree h number line
    have hread : Agree Eq Reading.ResultsAlike
        (readLine ρ config (.heading headers) number line)
        (readLine ρ config (.heading headers') number line) := by
      cases line with
      | blank => exact .ok ⟨.heading h, rfl⟩
      | header name value => exact .ok (takeIn_alike h name value number)
      | sectionStart | performanceLyric | performance | cue | lyric => exact hleave
    exact hread.bind fun _ _ hresult => .ok (resultsAlike_append rfl hresult)

/-- Readings that are alike go on alike with the same lines. -/
theorem run_agree (h : reading.Alike reading') (number : Int) (lines : List Line) :
    Agree Eq Reading.ResultsAlike (run ρ config reading number lines)
      (run ρ config reading' number lines) := by
  induction lines generalizing reading reading' number with
  | nil => exact .ok ⟨h, rfl⟩
  | cons line lines ih =>
    refine (step_agree h number line).bind fun result result' hresult => ?_
    exact (ih hresult.reading (number + 1)).bind fun _ _ hrest =>
      .ok (resultsAlike_append hresult.diagnostics hrest)

/-- Readings that are alike end alike. -/
theorem finish_agree (h : reading.Alike reading') :
    Agree Eq (fun document document' : Document => document.song = document'.song ∧
        document.diagnostics.map Diagnostic.eraseLines =
          document'.diagnostics.map Diagnostic.eraseLines)
      (finish ρ config reading) (finish ρ config reading') := by
  cases h with
  | body settings closed current => exact .refl fun _ _ => ⟨rfl, rfl⟩
  | heading h =>
    refine (Settings.resolve_agree h).bind ?_
    rintro ⟨settings, diagnostics⟩ ⟨settings', diagnostics'⟩ ⟨rfl, hdiagnostics⟩
    exact .ok ⟨rfl, hdiagnostics⟩

/-! ## Headings in another order -/

/-- Whether a line can stand in a heading: it is blank or a header. -/
def isHeading (line : Line) : Bool := !isContent line && !startsSection line

/-- Lines that can stand in a heading are taken in one after the other. -/
theorem run_heading (ρ : Rounding) (config : Config) {lines : List Line}
    (h : ∀ line ∈ lines, isHeading line = true) (headers : Headers) (number : Int) :
    ∃ last diagnostics,
      run ρ config (.heading headers) number lines = .ok (.heading last, diagnostics) ∧
        last.map Header.eraseLine = (Headers.addAll (headers.map Header.eraseLine) lines).1 ∧
        diagnostics.map Diagnostic.eraseLines =
          (Headers.addAll (headers.map Header.eraseLine) lines).2.map (.onLine 0) := by
  induction lines generalizing headers number with
  | nil => exact ⟨headers, [], rfl, rfl, rfl⟩
  | cons line lines ih =>
    rw [List.forall_mem_cons] at h
    cases line with
    | blank =>
      rw [run_blank, Headers.addAll_cons_of_none rfl]
      exact ih h.2 headers (number + 1)
    | header name value =>
      obtain ⟨last, diagnostics, hrun, hlast, hdiagnostics⟩ :=
        ih h.2 (headers.add name value number).1 (number + 1)
      have hadd := Headers.add_eraseLine headers name value number
      refine ⟨last, (headers.add name value number).2.map (.onLine number) ++ diagnostics,
        ?_, ?_, ?_⟩
      · have hstep : step ρ config (.heading headers) number (.header name value) =
            .ok (.heading (headers.add name value number).1,
              (headers.add name value number).2.map (.onLine number)) := rfl
        rw [run, hstep, ok_bind]
        dsimp only
        rw [hrun]
        rfl
      · rw [hlast, Headers.addAll, hadd]
      · rw [Headers.addAll, hadd, List.map_append, List.map_append, hdiagnostics, List.map_map,
          List.map_map]
        exact congrArg (· ++ _) (List.map_congr_left fun problem _ =>
          Diagnostic.eraseLines_onLine number problem)
    | sectionStart | performanceLyric | performance | cue | lyric =>
      exact absurd h.1 Bool.false_ne_true

/-- Lines that can stand in a heading are taken in, in either order, to headings that are alike,
with the same diagnostics in another order. -/
theorem run_heading_agree (ρ : Rounding) (config : Config) {front front' : List Line}
    (hfront : ∀ line ∈ front, isHeading line = true)
    (hfront' : ∀ line ∈ front', isHeading line = true)
    (horder : ∀ name, front.filter (·.headerName? = some name) =
      front'.filter (·.headerName? = some name)) (number : Int) :
    ∃ reading reading' diagnostics diagnostics',
      run ρ config (.heading []) number front = .ok (reading, diagnostics) ∧
        run ρ config (.heading []) number front' = .ok (reading', diagnostics') ∧
        reading.Alike reading' ∧
        (diagnostics.map Diagnostic.eraseLines).Perm (diagnostics'.map Diagnostic.eraseLines) := by
  -- The header lines alone are compared, since blank lines have no name to be ordered under.
  have hshuffled : Shuffled Line.headerName? (front.filter (·.headerName?.isSome))
      (front'.filter (·.headerName?.isSome)) := by
    refine shuffled_of_filter_eq fun key => ?_
    rw [List.filter_filter, List.filter_filter]
    cases key with
    | none =>
      have hnone (line : Line) : (line.headerName? = none && line.headerName?.isSome) = false := by
        cases line.headerName? <;> rfl
      simp [hnone]
    | some name =>
      have hsome (line : Line) :
          (decide (line.headerName? = some name) && line.headerName?.isSome) =
            decide (line.headerName? = some name) := by
        cases line.headerName? <;> simp
      simpa only [hsome] using horder name
  obtain ⟨last, diagnostics, hrun, hlast, hdiagnostics⟩ :=
    run_heading ρ config hfront [] number
  obtain ⟨last', diagnostics', hrun', hlast', hdiagnostics'⟩ :=
    run_heading ρ config hfront' [] number
  obtain ⟨halike, hperm⟩ := Headers.addAll_shuffled hshuffled []
  rw [Headers.addAll_filter, Headers.addAll_filter] at halike hperm
  refine ⟨_, _, diagnostics, diagnostics', hrun, hrun', .heading ?_, ?_⟩
  · rw [hlast, hlast']
    exact halike
  · rw [hdiagnostics, hdiagnostics']
    exact hperm.map _

/-- Two texts are the same but for the order of their headings. The lines in front, each blank or a
header, may stand in any order that keeps the headers under each name in order. It follows that both
fronts have the same headers; blank lines may stand anywhere between them, and both fronts are
equally long, unless nothing stands behind them. -/
structure Reorders (text text' : List Char) (front front' rest : List (List Char)) : Prop where
  /-- The lines of the one text. -/
  lines : Text.lines text = front ++ rest
  /-- The lines of the other text. -/
  lines' : Text.lines text' = front' ++ rest
  /-- Each line in front is blank or a header. -/
  heading : ∀ line ∈ front ++ front', isHeading (.ofText line) = true
  /-- The headers under each name are in order. -/
  order : ∀ name, (front.map Line.ofText).filter (·.headerName? = some name) =
    (front'.map Line.ofText).filter (·.headerName? = some name)
  /-- The lines behind have the same numbers. -/
  length : rest ≠ [] → front.length = front'.length

variable {text text' : List Char} {front front' rest : List (List Char)}

/-- A heading in another order. It is enough to look at the names of the headers that are there. -/
theorem reorders_of_perm (hlines : Text.lines text = front ++ rest)
    (hlines' : Text.lines text' = front' ++ rest) (hperm : front.Perm front')
    (hheading : ∀ line ∈ front, isHeading (.ofText line) = true)
    (horder : ∀ line ∈ front.map Line.ofText,
      (front.map Line.ofText).filter (·.headerName? = line.headerName?) =
        (front'.map Line.ofText).filter (·.headerName? = line.headerName?)) :
    Reorders text text' front front' rest where
  lines := hlines
  lines' := hlines'
  heading line h := hheading line <| (List.mem_append.1 h).elim id hperm.mem_iff.2
  length _ := hperm.length_eq
  order name := by
    by_cases hname : ∃ line ∈ front.map Line.ofText, line.headerName? = some name
    · obtain ⟨line, hline, hname⟩ := hname
      simpa only [hname] using horder line hline
    · have hfront : ∀ line ∈ front.map Line.ofText, ¬line.headerName? = some name :=
        fun line hline h => hname ⟨line, hline, h⟩
      have hfront' : ∀ line ∈ front'.map Line.ofText, ¬line.headerName? = some name :=
        fun line hline => hfront line ((hperm.map _).mem_iff.2 hline)
      rw [List.filter_eq_nil_iff.2 (by simpa using hfront),
        List.filter_eq_nil_iff.2 (by simpa using hfront')]

/-- A byte order mark at the start of a text is not moved there by another order of the heading. -/
theorem Reorders.head?_ne (h : Reorders text text' front front' rest)
    (hmark : text.head? ≠ some '\ufeff') : text'.head? ≠ some '\ufeff' := by
  intro hmark'
  obtain ⟨chars, rfl⟩ := List.head?_eq_some_iff.1 hmark'
  obtain ⟨line, others, hlines⟩ :=
    Text.exists_lines_cons (c := '\ufeff') (by decide) (by decide) chars
  cases front' with
  | cons first front' =>
    -- The line with the mark would be a lyric.
    obtain ⟨rfl, -⟩ := List.cons.inj (h.lines'.symm.trans hlines)
    obtain ⟨lyric, hlyric⟩ := Line.ofText_mark line
    have hheading := h.heading ('\ufeff' :: line) (by simp)
    rw [hlyric] at hheading
    cases hheading
  | nil =>
    -- The mark would be at the start of the first line behind both headings.
    have hrest : rest = ('\ufeff' :: line) :: others := h.lines'.symm.trans hlines
    have hfront : front = [] :=
      List.eq_nil_of_length_eq_zero (h.length (hrest ▸ List.cons_ne_nil _ _))
    have hfirst : Text.lines text = ('\ufeff' :: line) :: others := by
      rw [h.lines, hfront, hrest, List.nil_append]
    obtain ⟨more, rfl⟩ := Text.isPrefix_of_lines_eq hfirst
    exact hmark rfl

/-- Texts with their headings in different orders are read alike. -/
theorem Reorders.read_agree (ρ : Rounding) (config : Config)
    (h : Reorders text text' front front' rest) (hmark : text.head? ≠ some '\ufeff') :
    Agree Eq (fun document document' : Document => document.song = document'.song ∧
        (document.diagnostics.map Diagnostic.eraseLines).Perm
          (document'.diagnostics.map Diagnostic.eraseLines))
      (read ρ config text) (read ρ config text') := by
  have hlines : linesOf text = front.map Line.ofText ++ rest.map Line.ofText := by
    rw [linesOf, Text.dropMarks_eq_self hmark, h.lines, List.map_append]
  have hlines' : linesOf text' = front'.map Line.ofText ++ rest.map Line.ofText := by
    rw [linesOf, Text.dropMarks_eq_self (h.head?_ne hmark), h.lines', List.map_append]
  have hfronts := List.forall_mem_append.1 h.heading
  obtain ⟨reading, reading', diagnostics, diagnostics', hrun, hrun', halike, hperm⟩ :=
    run_heading_agree ρ config (List.forall_mem_map.2 hfronts.1) (List.forall_mem_map.2 hfronts.2)
      h.order 1
  -- The headings are equally long unless nothing follows them, so later lines keep their numbers.
  have hrest : Agree Eq Reading.ResultsAlike
      (run ρ config reading (1 + (front.map Line.ofText).length) (rest.map Line.ofText))
      (run ρ config reading' (1 + (front'.map Line.ofText).length) (rest.map Line.ofText)) := by
    rw [List.length_map, List.length_map]
    by_cases hempty : rest = []
    · rw [hempty]
      exact .ok ⟨halike, rfl⟩
    · rw [h.length hempty]
      exact run_agree halike _ _
  rw [read, read, hlines, hlines', run_append, run_append, hrun, hrun', ok_bind, ok_bind,
    bind_assoc, bind_assoc]
  refine hrest.bind fun result result' hresult => ?_
  refine (finish_agree hresult.reading).bind fun document document' hdocument => ?_
  refine .ok ⟨hdocument.1, ?_⟩
  simp only [List.map_append, hresult.diagnostics, hdocument.2]
  exact (hperm.append_right _).append_right _

/-- The order of headers does not matter, as long as those under one name keep theirs: the texts are
read to the same song, and what is reported is the same in another order and with other numbers of
lines. -/
theorem read_same_of_reorders (ρ : Rounding) (config : Config)
    (h : Reorders text text' front front' rest) (hmark : text.head? ≠ some '\ufeff') :
    (∀ fault, read ρ config text = .error fault ↔ read ρ config text' = .error fault) ∧
      ∀ document document', read ρ config text = .ok document →
        read ρ config text' = .ok document' →
          document.song = document'.song ∧
            (document.diagnostics.map Diagnostic.eraseLines).Perm
              (document'.diagnostics.map Diagnostic.eraseLines) :=
  have hread := h.read_agree ρ config hmark
  ⟨hread.error_iff, fun _ _ => hread.related⟩

/-- A heading with a header of two names, a malformed value and an unknown header. -/
def declaredFront : List String :=
  ["@Version 1.2", "@BPM fast", "", "@TimeSignature 3/4", "@Mood calm", "@mmslVersion 2.0"]

/-- The same headers in another order. -/
def reorderedFront : List String :=
  ["@Mood calm", "@TimeSignature 3/4", "@Version 1.2", "@mmslVersion 2.0", "", "@BPM fast"]

/-- What stands behind both headings. -/
def behindFront : List String := ["[A]", "la", "@BPM 90"]

/-- A text with a heading in front of a section. -/
def underHeading (front : List String) : List Char :=
  ("\n".intercalate (front ++ behindFront)).toList

/-- The second heading has the headers of the first one in another order. The songs are equal, and
the same is reported on other lines. -/
theorem read_same_of_reorders_declaredFront :
    Reorders (underHeading declaredFront) (underHeading reorderedFront)
        (declaredFront.map String.toList) (reorderedFront.map String.toList)
        (behindFront.map String.toList) ∧
      ∃ document document', read .binary64 .standard (underHeading declaredFront) = .ok document ∧
        read .binary64 .standard (underHeading reorderedFront) = .ok document' ∧
        document.diagnostics.map (·.line) = [some 5, some 6, some 2, some 9] ∧
        document'.diagnostics.map (·.line) = [some 1, some 4, some 6, some 9] ∧
        document.song = document'.song ∧
        (document.diagnostics.map Diagnostic.eraseLines).Perm
          (document'.diagnostics.map Diagnostic.eraseLines) := by
  have hperm : (declaredFront.map String.toList).Perm (reorderedFront.map String.toList) :=
    .map _ (by decide)
  have hreorders : Reorders (underHeading declaredFront) (underHeading reorderedFront)
      (declaredFront.map String.toList) (reorderedFront.map String.toList)
      (behindFront.map String.toList) := by
    exact reorders_of_perm (by decide +kernel) (by decide +kernel) hperm (by decide +kernel)
      (by decide +kernel)
  have hdeclared : yields (read .binary64 .standard (underHeading declaredFront)) (fun document =>
      document.diagnostics.map (·.line) == [some 5, some 6, some 2, some 9]) = true := by
    decide +kernel
  have hreordered : yields (read .binary64 .standard (underHeading reorderedFront)) (fun document =>
      document.diagnostics.map (·.line) == [some 1, some 4, some 6, some 9]) = true := by
    decide +kernel
  obtain ⟨document, hread, hlines⟩ := exists_of_yields hdeclared
  obtain ⟨document', hread', hlines'⟩ := exists_of_yields hreordered
  obtain ⟨hsong, hreports⟩ := (read_same_of_reorders .binary64 .standard hreorders
    (by decide +kernel)).2 _ _ hread hread'
  exact ⟨hreorders, document, document', hread, hread', beq_iff_eq.1 hlines, beq_iff_eq.1 hlines',
    hsong, hreports⟩

end Document

end CueSheet
