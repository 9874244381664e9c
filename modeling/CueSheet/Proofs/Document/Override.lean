import CueSheet.Proofs.Cue.Beside
import CueSheet.Proofs.Document.Lines
import CueSheet.Proofs.Song

/-!
# Documents under two tempo overrides

An override of the tempo decides the tempo of the settings and nothing else that is resolved from
headers (`Settings.resolve_withBpm`). So two readings of one document that differ in the override go
through the same states, with the same diagnostics, up to the tempo and to the cues that are
converted with it (`Document.read_agree_override`). How the cues are related is left open: it is
enough that the body of each cue line is read alike at the two tempos.
-/

namespace CueSheet

/-- The settings of a run with a tempo in place of the one that a document names. -/
def Config.withBpm (config : Config) (tempo : Tempo) : Config := { config with bpm := some tempo }

/-- Settings at another tempo. -/
def Settings.atTempo (settings : Settings) (bpm : Number) : Settings := { settings with bpm }

/-- An override of the tempo decides the tempo, and nothing else. -/
theorem Settings.resolve_withBpm (ρ : Rounding) (config : Config) (tempo : Tempo)
    (headers : Headers) :
    resolve ρ (config.withBpm tempo) headers =
      (fun result => (result.1.atTempo tempo.val.normalize, result.2)) <$>
        resolve ρ config headers := by
  simp [resolve, Config.withBpm, atTempo]

/-! ## Readings beside each other -/

variable (C : Cue → Cue → Prop)

/-- Two open sections say the same, up to their cues. -/
structure OpenSection.Beside (current current' : OpenSection) : Prop where
  /-- The labels are the same. -/
  label : current.label = current'.label
  /-- The lines are the same. -/
  line : current.line = current'.line
  /-- The items stand beside each other. -/
  items : List.Forall₂ (Item.Beside C Eq) current.items current'.items

/-- Two readings are equally far, at two tempos, and say the same up to their cues. -/
inductive Reading.Beside (bpm bpm' : Number) : Reading → Reading → Prop where
  /-- Both are in the heading. -/
  | heading (headers : Headers) : Beside bpm bpm' (.heading headers) (.heading headers)
  /-- In both a section is open. -/
  | body (settings : Settings) {closed closed' : List Section} {current current' : OpenSection}
    (hclosed : List.Forall₂ (Section.Beside C Eq) closed closed')
    (hcurrent : current.Beside C current') :
    Beside bpm bpm' (.body (settings.atTempo bpm) closed current)
      (.body (settings.atTempo bpm') closed' current')

/-- Two results of reading are beside each other, with the same diagnostics. -/
structure Reading.ResultsBeside (bpm bpm' : Number) (result result' : Reading × List Diagnostic) :
    Prop where
  /-- The readings are beside each other. -/
  reading : result.1.Beside C bpm bpm' result'.1
  /-- The diagnostics are the same. -/
  diagnostics : result.2 = result'.2

/-- Two documents say the same at two tempos, up to their cues. -/
structure Document.Beside (bpm bpm' : Number) (document document' : Document) : Prop where
  /-- The first document is at the first tempo. -/
  bpm : document.song.bpm = .number bpm
  /-- The second song is the first one at the second tempo, up to its sections. -/
  song : document'.song =
    { document.song with bpm := .number bpm', sections := document'.song.sections }
  /-- The sections stand beside each other. -/
  sections : List.Forall₂ (Section.Beside C Eq) document.song.sections document'.song.sections
  /-- The diagnostics are the same. -/
  diagnostics : document.diagnostics = document'.diagnostics

/-- The body of a line, if the line is a cue, is read alike at two tempos. -/
def Line.ReadsBeside (ρ : Rounding) (bpm bpm' : Number) (line : Line) : Prop :=
  ∀ body, line = .cue body → ∀ beatsPerBar : Nat, Agree Eq (CueBody.Beside C)
    (CueBody.read ρ (.number bpm) (.int beatsPerBar) body)
    (CueBody.read ρ (.number bpm') (.int beatsPerBar) body)

namespace Document

variable {C} {ρ : Rounding} {bpm bpm' : Number} {settings : Settings} {line : Line}

/-- Sections beside each other are closed alike. -/
theorem close_beside {closed closed' : List Section} {current current' : OpenSection}
    (hclosed : List.Forall₂ (Section.Beside C Eq) closed closed')
    (hcurrent : current.Beside C current') :
    List.Forall₂ (Section.Beside C Eq) (close closed current).1 (close closed' current').1 ∧
      (close closed current).2 = (close closed' current').2 := by
  obtain ⟨label, number, items⟩ := current
  obtain ⟨label', number', items'⟩ := current'
  obtain ⟨rfl, rfl, hitems⟩ := hcurrent
  have hids : closed.map (·.id) = closed'.map (·.id) := by
    rw [← List.forall₂_eq_eq_eq, List.forall₂_map_left_iff, List.forall₂_map_right_iff]
    exact hclosed.imp fun _ _ hpart => hpart.id
  unfold close
  dsimp only at hitems ⊢
  rw [← hids]
  cases hitems with
  | nil => exact ⟨hclosed, rfl⟩
  | cons hfirst hrest =>
    exact ⟨List.rel_append hclosed (.cons ⟨rfl, rfl, rfl, .cons hfirst hrest⟩ .nil), rfl⟩

/-- A line whose body is read alike has items beside each other, and the same problems. -/
theorem lineItems_agree (hline : line.ReadsBeside C ρ bpm bpm') (number : Int) :
    Agree Eq (fun said said' => List.Forall₂ (Item.Beside C Eq) said.1 said'.1 ∧ said.2 = said'.2)
      (lineItems ρ (settings.atTempo bpm) number line)
      (lineItems ρ (settings.atTempo bpm') number line) := by
  cases line with
  | performanceLyric text lyric =>
    exact .ok ⟨.cons (.performance text rfl) (.cons (.lyric lyric rfl) .nil), rfl⟩
  | performance text => exact .ok ⟨.cons (.performance text rfl) .nil, rfl⟩
  | lyric text => exact .ok ⟨.cons (.lyric text rfl) .nil, rfl⟩
  | cue body =>
    refine (hline body rfl settings.beatsPerBar).bind fun read read' hread => ?_
    exact .ok ⟨.cons (.cue hread.cue rfl) .nil, hread.problems⟩
  | blank | header | sectionStart => exact .ok ⟨.nil, rfl⟩

/-- A line adds items beside each other to open sections beside each other. -/
theorem addItems_agree (settings : Settings) (hline : line.ReadsBeside C ρ bpm bpm') (number : Int)
    {closed closed' : List Section} {current current' : OpenSection}
    (hclosed : List.Forall₂ (Section.Beside C Eq) closed closed')
    (hcurrent : current.Beside C current') :
    Agree Eq (Reading.ResultsBeside C bpm bpm')
      (addItems ρ (settings.atTempo bpm) closed current number line)
      (addItems ρ (settings.atTempo bpm') closed' current' number line) := by
  refine (lineItems_agree hline number).bind ?_
  rintro ⟨items, problems⟩ ⟨items', problems'⟩ ⟨hitems, rfl⟩
  exact .ok ⟨.body settings hclosed
    ⟨hcurrent.label, hcurrent.line, List.rel_append hcurrent.items hitems⟩, rfl⟩

/-- Results beside each other stay so behind the same diagnostics. -/
theorem resultsBeside_append (diagnostics : List Diagnostic)
    {result result' : Reading × List Diagnostic}
    (h : Reading.ResultsBeside C bpm bpm' result result') :
    Reading.ResultsBeside C bpm bpm' (result.1, diagnostics ++ result.2)
      (result'.1, diagnostics ++ result'.2) :=
  ⟨h.reading, by rw [h.diagnostics]⟩

variable {config : Config} {p q : Tempo} {reading reading' : Reading}

/-- Headers are resolved to the same settings at two tempos, with the same diagnostics. -/
theorem resolve_agree_override (headers : Headers) :
    Agree Eq (fun result result' => ∃ settings : Settings, ∃ diagnostics,
        result = (settings.atTempo p.val.normalize, diagnostics) ∧
        result' = (settings.atTempo q.val.normalize, diagnostics))
      (Settings.resolve ρ (config.withBpm p) headers)
      (Settings.resolve ρ (config.withBpm q) headers) := by
  rw [Settings.resolve_withBpm, Settings.resolve_withBpm]
  cases Settings.resolve ρ config headers with
  | error => exact .fault rfl
  | ok result => exact .ok ⟨result.1, result.2, rfl, rfl⟩

/-- A line ends the heading alike. -/
theorem leaveHeading_agree_override (config : Config)
    (hline : line.ReadsBeside C ρ p.val.normalize q.val.normalize) (headers : Headers)
    (number : Int) :
    Agree Eq (Reading.ResultsBeside C p.val.normalize q.val.normalize)
      (leaveHeading ρ (config.withBpm p) headers number line)
      (leaveHeading ρ (config.withBpm q) headers number line) := by
  refine (resolve_agree_override headers).bind ?_
  rintro _ _ ⟨settings, diagnostics, rfl, rfl⟩
  have hadd : Agree Eq (Reading.ResultsBeside C p.val.normalize q.val.normalize)
      (addItems ρ (settings.atTempo p.val.normalize) [] ⟨implicitLabel, number, []⟩ number line)
      (addItems ρ (settings.atTempo q.val.normalize) [] ⟨implicitLabel, number, []⟩ number line) :=
    addItems_agree settings hline number .nil ⟨rfl, rfl, .nil⟩
  cases line with
  | sectionStart label => exact .ok ⟨.body settings .nil ⟨rfl, rfl, .nil⟩, rfl⟩
  | blank | header | performanceLyric | performance | cue | lyric =>
    exact hadd.bind fun _ _ hresult => .ok (resultsBeside_append diagnostics hresult)

/-- Readings beside each other go on beside each other with a line. -/
theorem step_agree_override (hline : line.ReadsBeside C ρ p.val.normalize q.val.normalize)
    (h : reading.Beside C p.val.normalize q.val.normalize reading') (number : Int) :
    Agree Eq (Reading.ResultsBeside C p.val.normalize q.val.normalize)
      (step ρ (config.withBpm p) reading number line)
      (step ρ (config.withBpm q) reading' number line) := by
  have hread : Agree Eq (Reading.ResultsBeside C p.val.normalize q.val.normalize)
      (readLine ρ (config.withBpm p) reading number line)
      (readLine ρ (config.withBpm q) reading' number line) := by
    cases h with
    | heading headers =>
      have hleave := leaveHeading_agree_override config hline headers number
      cases line with
      | blank => exact .ok ⟨.heading headers, rfl⟩
      | header => exact .ok ⟨.heading _, rfl⟩
      -- Leaving the heading, the tempo is that of the configuration, which overrides the headers.
      | sectionStart | performanceLyric | performance | cue | lyric => exact hleave
    | body settings hclosed hcurrent =>
      have hadd := addItems_agree settings hline number hclosed hcurrent
      cases line with
      | blank => exact .ok ⟨.body settings hclosed hcurrent, rfl⟩
      | header => exact .ok ⟨.body settings hclosed hcurrent, rfl⟩
      | sectionStart label =>
        obtain ⟨hparts, hdiagnostics⟩ := close_beside hclosed hcurrent
        exact .ok ⟨.body settings hparts ⟨rfl, rfl, .nil⟩, hdiagnostics⟩
      | performanceLyric | performance | cue | lyric => exact hadd
  exact hread.bind fun _ _ hresult => .ok (resultsBeside_append _ hresult)

/-- Readings beside each other go on beside each other with the same lines. -/
theorem run_agree_override {lines : List Line}
    (hlines : ∀ line ∈ lines, line.ReadsBeside C ρ p.val.normalize q.val.normalize)
    (h : reading.Beside C p.val.normalize q.val.normalize reading') (number : Int) :
    Agree Eq (Reading.ResultsBeside C p.val.normalize q.val.normalize)
      (run ρ (config.withBpm p) reading number lines)
      (run ρ (config.withBpm q) reading' number lines) := by
  induction lines generalizing reading reading' number with
  | nil => exact .ok ⟨h, rfl⟩
  | cons line lines ih =>
    rw [List.forall_mem_cons] at hlines
    refine (step_agree_override hlines.1 h number).bind fun result result' hresult => ?_
    refine (ih hlines.2 hresult.reading (number + 1)).bind fun _ _ hrest => .ok ?_
    rw [hresult.diagnostics]
    exact resultsBeside_append _ hrest

/-- Readings beside each other end in documents beside each other. -/
theorem finish_agree_override (h : reading.Beside C p.val.normalize q.val.normalize reading') :
    Agree Eq (Document.Beside C p.val.normalize q.val.normalize)
      (finish ρ (config.withBpm p) reading) (finish ρ (config.withBpm q) reading') := by
  cases h with
  | heading headers =>
    refine (resolve_agree_override headers).bind ?_
    rintro _ _ ⟨settings, diagnostics, rfl, rfl⟩
    exact .ok ⟨rfl, rfl, .nil, rfl⟩
  | body settings hclosed hcurrent =>
    obtain ⟨hparts, hdiagnostics⟩ := close_beside hclosed hcurrent
    exact .ok ⟨rfl, rfl, hparts, hdiagnostics⟩

/-- A document is read alike under two overrides of the tempo, if the body of each of its cue lines
is. -/
theorem read_agree_override {text : List Char}
    (hlines : ∀ line ∈ linesOf text, line.ReadsBeside C ρ p.val.normalize q.val.normalize) :
    Agree Eq (Document.Beside C p.val.normalize q.val.normalize) (read ρ (config.withBpm p) text)
      (read ρ (config.withBpm q) text) := by
  refine (run_agree_override hlines (.heading []) 1).bind fun result result' hresult => ?_
  refine (finish_agree_override hresult.reading).bind fun document document' hdocument => .ok ?_
  exact ⟨hdocument.bpm, hdocument.song, hdocument.sections,
    by rw [hresult.diagnostics, hdocument.diagnostics]⟩

end Document

end CueSheet
