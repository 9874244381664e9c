import CueSheet.Proofs.Document.Problems

/-!
# What reading reports, and on which lines things stand

Reading a document reports problems of three kinds: about the form of a line, about the value of a
header, and about a section without items (`Document.IsReadProblem`). Headers, items, open sections and
diagnostics carry the numbers of their lines, and all of these numbers come from the numbering of the
lines that are read. So whatever holds of the numbers of all lines holds of every number that a
reading keeps (`Reading.IsOn`) or reports a problem on (`Document.isOn_run`), and what a document says
and what is reported about it stands on one of its lines (`Document.isOn_read`).
-/

namespace CueSheet

variable {P : Int → Prop}

/-- A diagnostic stands on a line whose number has a property. -/
def Diagnostic.IsOn (P : Int → Prop) (diagnostic : Diagnostic) : Prop :=
  ∃ line, diagnostic.line = some line ∧ P line

/-- An item stands on a line whose number has a property. -/
def Item.IsOn (P : Int → Prop) : Item → Prop
  | .performance _ line | .lyric _ line | .cue _ line => P line
  | .raw _ => True

/-- The lines that a reading keeps have numbers with a property. -/
def Reading.IsOn (P : Int → Prop) : Reading → Prop
  | .heading headers => ∀ header ∈ headers, P header.line
  | .body _ closed current =>
    (∀ part ∈ closed, ∀ item ∈ part.items, item.IsOn P) ∧ P current.line ∧
      ∀ item ∈ current.items, item.IsOn P

/-- Diagnostics stand on lines whose numbers have a property. -/
def AreOn (P : Int → Prop) (diagnostics : List Diagnostic) : Prop := ∀ d ∈ diagnostics, d.IsOn P

/-- An item stands on a line with every property that follows. -/
theorem Item.IsOn.imp {Q : Int → Prop} (h : ∀ line, P line → Q line) {item : Item}
    (hitem : item.IsOn P) : item.IsOn Q := by
  cases item with
  | performance text line | lyric text line | cue cue line => exact h line hitem
  | raw => trivial

/-- Diagnostics stand on lines with every property that follows. -/
theorem AreOn.imp {Q : Int → Prop} (h : ∀ line, P line → Q line) {diagnostics : List Diagnostic}
    (hds : AreOn P diagnostics) : AreOn Q diagnostics := fun d hd => by
  obtain ⟨line, hline, hP⟩ := hds d hd
  exact ⟨line, hline, h line hP⟩

/-- Diagnostics are those of problems that reading reports, with their usual severities, on lines
whose numbers have a property. -/
def AreReported (P : Int → Prop) (diagnostics : List Diagnostic) : Prop :=
  ∀ d ∈ diagnostics, ∃ line problem,
    P line ∧ Document.IsReadProblem problem ∧ d = .onLine line problem

/-- What reading reports stands on the lines that it reports it on. -/
theorem AreReported.areOn {diagnostics : List Diagnostic} (h : AreReported P diagnostics) :
    AreOn P diagnostics := by
  intro d hd
  obtain ⟨line, problem, hline, -, rfl⟩ := h d hd
  exact ⟨line, rfl, hline⟩

/-- Nothing is reported by no diagnostics. -/
theorem areReported_nil : AreReported P [] := List.forall_mem_nil _

/-- Two parts of diagnostics report what each of them does. -/
theorem AreReported.append {ds es : List Diagnostic} (hds : AreReported P ds)
    (hes : AreReported P es) : AreReported P (ds ++ es) := List.forall_mem_append.2 ⟨hds, hes⟩

/-- Problems about the form of a line are reported on the line. -/
theorem areReported_map_onLine {line : Int} (hline : P line) {problems : List Problem}
    (h : ∀ problem ∈ problems, Document.isLineProblem problem = true) :
    AreReported P (problems.map (Diagnostic.onLine line)) :=
  List.forall_mem_map.2 fun problem hproblem => ⟨line, problem, hline, .line (h problem hproblem), rfl⟩

/-! ## Headers -/

/-- What is reported about headers stands on their lines. -/
theorem Settings.areReported_resolve {ρ : Rounding} {config : Config} {headers : Headers}
    {settings : Settings} {diagnostics : List Diagnostic}
    (hheaders : ∀ header ∈ headers, P header.line)
    (h : resolve ρ config headers = .ok (settings, diagnostics)) : AreReported P diagnostics := by
  intro d hd
  obtain ⟨header, hheader, problem, hproblem, rfl⟩ := Document.of_mem_resolve h d hd
  exact ⟨header.line, problem, hheaders header hheader, .header hproblem, rfl⟩

/-- A header line is taken in with its number. -/
theorem Headers.isOn_add {headers : Headers} {line : Int} (hheaders : ∀ header ∈ headers, P header.line)
    (hline : P line) (name value : String) :
    ∀ header ∈ (headers.add name value line).1, P header.line := by
  unfold Headers.add
  split
  · exact hheaders
  · split
    · exact hheaders
    · exact List.forall_mem_append.2 ⟨hheaders, List.forall_mem_singleton.2 hline⟩

namespace Document

variable {ρ : Rounding} {config : Config} {settings : Settings} {closed : List Section}
  {current : OpenSection} {number : Int} {line : Line} {lines : List Line} {reading next : Reading}
  {diagnostics : List Diagnostic} {document : Document}

/-! ## Steps -/

/-- The items of a line stand on it. -/
theorem isOn_lineItems {items : List Item} {problems : List Problem} (hnumber : P number)
    (h : lineItems ρ settings number line = .ok (items, problems)) : ∀ item ∈ items, item.IsOn P := by
  cases line with
  | blank | header | sectionStart =>
    obtain ⟨rfl, -⟩ := Prod.mk.inj (Except.ok.inj h)
    exact fun _ hitem => absurd hitem List.not_mem_nil
  | performance | lyric =>
    obtain ⟨rfl, -⟩ := Prod.mk.inj (Except.ok.inj h)
    exact List.forall_mem_singleton.2 hnumber
  | performanceLyric =>
    obtain ⟨rfl, -⟩ := Prod.mk.inj (Except.ok.inj h)
    exact List.forall_mem_cons.2 ⟨hnumber, List.forall_mem_singleton.2 hnumber⟩
  | cue body =>
    obtain ⟨read, -, h⟩ := bind_eq_ok.1 h
    obtain ⟨rfl, -⟩ := Prod.mk.inj (Except.ok.inj h)
    exact List.forall_mem_singleton.2 hnumber

/-- A line adds what stands on it to the open section. -/
theorem isOn_addItems (hbody : (Reading.body settings closed current).IsOn P) (hnumber : P number)
    (h : addItems ρ settings closed current number line = .ok (next, diagnostics)) :
    next.IsOn P ∧ AreReported P diagnostics := by
  obtain ⟨⟨items, problems⟩, hitems, h⟩ := bind_eq_ok.1 h
  obtain ⟨rfl, rfl⟩ := Prod.mk.inj (Except.ok.inj h)
  obtain ⟨hclosed, hstart, hcurrent⟩ := hbody
  exact ⟨⟨hclosed, hstart, List.forall_mem_append.2 ⟨hcurrent, isOn_lineItems hnumber hitems⟩⟩,
    areReported_map_onLine hnumber (lineItems_problems hitems)⟩

/-- A section that closes is reported on its line, and its items stay on theirs. -/
theorem isOn_close (hbody : (Reading.body settings closed current).IsOn P) :
    (∀ part ∈ (close closed current).1, ∀ item ∈ part.items, item.IsOn P) ∧
      AreReported P (close closed current).2 := by
  obtain ⟨hclosed, hstart, hcurrent⟩ := hbody
  unfold close
  split_ifs
  · exact ⟨hclosed, List.forall_mem_singleton.2
      ⟨current.line, _, hstart, .emptySection current.label rfl, rfl⟩⟩
  · exact ⟨List.forall_mem_append.2 ⟨hclosed, List.forall_mem_singleton.2 hcurrent⟩,
      areReported_nil⟩

/-- A line that ends the heading opens a section on it. -/
theorem isOn_leaveHeading {headers : Headers} (hheaders : ∀ header ∈ headers, P header.line)
    (hnumber : P number)
    (h : leaveHeading ρ config headers number line = .ok (next, diagnostics)) :
    next.IsOn P ∧ AreReported P diagnostics := by
  obtain ⟨⟨settings, resolved⟩, hresolve, h⟩ := bind_eq_ok.1 h
  have hresolved := Settings.areReported_resolve hheaders hresolve
  have hopened (label : String) : (Reading.body settings [] ⟨label, number, []⟩).IsOn P :=
    ⟨nofun, hnumber, nofun⟩
  dsimp only at h
  split at h
  · obtain ⟨rfl, rfl⟩ := Prod.mk.inj (Except.ok.inj h)
    exact ⟨hopened _, hresolved⟩
  · obtain ⟨⟨opened, more⟩, hadd, h⟩ := bind_eq_ok.1 h
    obtain ⟨rfl, rfl⟩ := Prod.mk.inj (Except.ok.inj h)
    obtain ⟨hnext, hmore⟩ := isOn_addItems (hopened implicitLabel) hnumber hadd
    exact ⟨hnext, hresolved.append hmore⟩

/-- A line of known kind keeps and reports lines with the property. -/
theorem isOn_readLine (hreading : reading.IsOn P) (hnumber : P number)
    (h : readLine ρ config reading number line = .ok (next, diagnostics)) :
    next.IsOn P ∧ AreReported P diagnostics := by
  cases reading with
  | heading headers =>
    have hleave (h : leaveHeading ρ config headers number line = .ok (next, diagnostics)) :=
      isOn_leaveHeading hreading hnumber h
    cases line with
    | blank =>
      obtain ⟨rfl, rfl⟩ := Prod.mk.inj (Except.ok.inj h)
      exact ⟨hreading, areReported_nil⟩
    | header key value =>
      obtain ⟨rfl, rfl⟩ := Prod.mk.inj (Except.ok.inj h)
      exact ⟨Headers.isOn_add hreading hnumber key value,
        areReported_map_onLine hnumber (headers_add_problems headers key value number)⟩
    -- Any other line leaves the heading, and reports at headers or at itself.
    | sectionStart | performanceLyric | performance | cue | lyric => exact hleave h
  | body settings closed current =>
    have hadd (h : addItems ρ settings closed current number line = .ok (next, diagnostics)) :=
      isOn_addItems hreading hnumber h
    cases line with
    | blank =>
      obtain ⟨rfl, rfl⟩ := Prod.mk.inj (Except.ok.inj h)
      exact ⟨hreading, areReported_nil⟩
    | header key value =>
      obtain ⟨rfl, rfl⟩ := Prod.mk.inj (Except.ok.inj h)
      exact ⟨hreading, List.forall_mem_singleton.2 ⟨number, _, hnumber, .line rfl, rfl⟩⟩
    | sectionStart label =>
      obtain ⟨rfl, rfl⟩ := Prod.mk.inj (Except.ok.inj h)
      obtain ⟨hclosed, hreports⟩ := isOn_close hreading
      exact ⟨⟨hclosed, hnumber, nofun⟩, hreports⟩
    | performanceLyric | performance | cue | lyric => exact hadd h

/-- A line keeps and reports lines with the property. -/
theorem isOn_step (hreading : reading.IsOn P) (hnumber : P number)
    (h : step ρ config reading number line = .ok (next, diagnostics)) :
    next.IsOn P ∧ AreReported P diagnostics := by
  obtain ⟨⟨read, reports⟩, hread, h⟩ := bind_eq_ok.1 h
  obtain ⟨rfl, rfl⟩ := Prod.mk.inj (Except.ok.inj h)
  obtain ⟨hnext, hreports⟩ := isOn_readLine hreading hnumber hread
  exact ⟨hnext, (areReported_map_onLine hnumber (problem?_isLineProblem line)).append hreports⟩

/-! ## Whole documents -/

/-- Lines whose numbers have the property keep and report lines with it. The induction is on the lines,
the first of which has the given number. -/
theorem isOn_run (hreading : reading.IsOn P)
    (hnumbers : ∀ k : Nat, k < lines.length → P (number + k))
    (h : run ρ config reading number lines = .ok (next, diagnostics)) :
    next.IsOn P ∧ AreReported P diagnostics := by
  induction lines generalizing reading number diagnostics with
  | nil =>
    obtain ⟨rfl, rfl⟩ := Prod.mk.inj (Except.ok.inj h)
    exact ⟨hreading, areReported_nil⟩
  | cons line lines ih =>
    obtain ⟨⟨stepped, ds⟩, hstep, h⟩ := bind_eq_ok.1 h
    obtain ⟨⟨last, more⟩, hrest, h⟩ := bind_eq_ok.1 h
    obtain ⟨rfl, rfl⟩ := Prod.mk.inj (Except.ok.inj h)
    have hfirst : P number := by simpa using hnumbers 0 (by simp)
    obtain ⟨hstepped, hds⟩ := isOn_step hreading hfirst hstep
    have hrestOn : ∀ k : Nat, k < lines.length → P (number + 1 + k) := fun k hk => by
      have hshift : number + 1 + (k : Int) = number + ((k + 1 : Nat) : Int) := by omega
      rw [hshift]
      exact hnumbers (k + 1) (by simpa using hk)
    obtain ⟨hlast, hmore⟩ := ih hstepped hrestOn hrest
    exact ⟨hlast, hds.append hmore⟩

/-- What a document says and what is reported at its end stands on lines that the reading keeps. -/
theorem isOn_finish (hreading : reading.IsOn P) (h : finish ρ config reading = .ok document) :
    (∀ part ∈ document.song.sections, ∀ item ∈ part.items, item.IsOn P) ∧
      AreReported P document.diagnostics := by
  cases reading with
  | heading headers =>
    obtain ⟨⟨settings, resolved⟩, hresolve, h⟩ := bind_eq_ok.1 h
    obtain rfl := Except.ok.inj h
    exact ⟨nofun, Settings.areReported_resolve hreading hresolve⟩
  | body settings closed current =>
    obtain rfl := Except.ok.inj h
    exact isOn_close hreading

/-- What a document says and what is reported about it stands on one of its lines. -/
theorem isOn_read {text : List Char} (h : read ρ config text = .ok document) :
    (∀ part ∈ document.song.sections, ∀ item ∈ part.items,
        item.IsOn fun line => 1 ≤ line ∧ line ≤ (linesOf text).length) ∧
      AreReported (fun line => 1 ≤ line ∧ line ≤ (linesOf text).length) document.diagnostics := by
  obtain ⟨⟨reading, before⟩, hrun, h⟩ := bind_eq_ok.1 h
  obtain ⟨ended, hfinish, h⟩ := bind_eq_ok.1 h
  obtain rfl := Except.ok.inj h
  have hheading : (Reading.heading []).IsOn fun line => 1 ≤ line ∧ line ≤ (linesOf text).length :=
    fun _ hheader => absurd hheader List.not_mem_nil
  obtain ⟨hreading, hbefore⟩ := isOn_run hheading (fun k hk => by omega) hrun
  obtain ⟨hitems, hended⟩ := isOn_finish hreading hfinish
  exact ⟨hitems, hbefore.append hended⟩

end Document

end CueSheet
