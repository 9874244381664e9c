import CueSheet.Command.Run
import CueSheet.Proofs.Command.Settings
import CueSheet.Proofs.Json.Printed
import CueSheet.Proofs.Process.Written

/-!
# How a document is parsed by a command

A command that prints the canonical form of a document ends in one of four ways (`ParseEnds`): the
settings are not in order, an input cannot be read, or the document is accepted or refused. Each way
has its exit code and its lines on the standard error. Only an accepted document leaves something on
the standard output, which is the whole of its canonical form. `ends_of_run` says that there is no
other way, whatever the environment, the files and the standard input are, as long as the processing
stops for nothing but an input that cannot be read: all that has to be written can be, the canonical
form of an accepted document as well as each diagnostic on one line.
-/

namespace CueSheet

/-! ## Diagnostics in writing -/

namespace Command

variable {diagnostic : Diagnostic} {line : String}

/-- A diagnostic fails to be written exactly if it stands on a line whose number is too long. -/
theorem fails_diagnosticLine_iff :
    Fails (diagnosticLine diagnostic) ↔ ∃ n ∈ diagnostic.line, ¬(Number.int n).IsWritable := by
  rw [diagnosticLine, fails_bind_of_total fun _ _ => not_fails_pure _, Json.write,
    Json.fails_writeAt_iff]
  cases hline : diagnostic.line <;>
    simp [Diagnostic.toValue, hline, Value.ofInt?, Value.int, Number.isStrict_int_iff]

/-- A diagnostic is written without controls. -/
theorem isPrinted_of_diagnosticLine (h : diagnosticLine diagnostic = .ok line) :
    Json.IsPrinted .oneLine line.toList := by
  obtain ⟨text, htext, h⟩ := bind_eq_ok.1 h
  obtain rfl := pure_eq_ok_iff.1 h
  rw [String.toList_ofList]
  exact Json.isPrinted_of_writeAt htext

/-- The lines of diagnostics that can all be written are all of them. -/
theorem diagnosticLines_of_mapM {diagnostics : List Diagnostic} {lines : List String}
    (h : diagnostics.mapM diagnosticLine = .ok lines) :
    diagnosticLines diagnostics = (lines, none) := by
  have hall := mapM_eq_ok_iff.1 h
  clear h
  induction hall with
  | nil => rfl
  | cons hline _ ih => rw [diagnosticLines, hline, ih]

/-- Diagnostics on lines whose numbers can be written are written. -/
theorem exists_mapM_diagnosticLine {diagnostics : List Diagnostic}
    (h : ∀ d ∈ diagnostics, ∀ n ∈ d.line, (Number.int n).IsWritable) :
    ∃ lines, diagnostics.mapM diagnosticLine = .ok lines ∧
      ∀ line ∈ lines, Json.IsPrinted .oneLine line.toList := by
  refine exists_mapM_iff.2 fun d hd => ?_
  have hwritten : ¬Fails (diagnosticLine d) := by
    rw [fails_diagnosticLine_iff]
    rintro ⟨n, hn, hlong⟩
    exact hlong (h d hd n hn)
  obtain ⟨line, hline⟩ := not_fails_iff.1 hwritten
  exact ⟨line, hline, isPrinted_of_diagnosticLine hline⟩

/-! ## Ways to end -/

/-- A line tells of a fatal problem that stands on no line of a document. -/
def TellsFatal (category : Category) (field : Option String) (source message line : String) : Prop :=
  Json.write .oneLine (.record [
    ("category", .text category.name), ("severity", .text "fatal"), ("message", .text message),
    ("line", .null), ("field", .ofText? field), ("source", .text source)]) = .ok line.toList

/-- What comes of the document of a command. -/
def processed (world : World) (file : String) (config : Config) : Except Fault Outcome := do
  let (source, text) ← readDocument world file
  process world.files config none source text

variable (libraries : Libraries) (world : World) (invocation : Invocation)

/-- How a command ends that prints the canonical form of a document and no log. -/
inductive ParseEnds : Ending → Prop
  /-- The settings are not in order. -/
  | misconfigured (fault : ConfigFault) (line : String)
      (hconfig : Config.fromEnvironment libraries.validate world.environment invocation.overrides =
        .error fault)
      (hline : TellsFatal .schemaViolation (some "config") "environment"
        (s!"Invalid configuration: {fault.message}") line) :
      ParseEnds ⟨2, "", [line], none⟩
  /-- The document or the catalog cannot be read. -/
  | unreadable (config : Config) (source : String) (cause : InputFault) (line : String)
      (hconfig : Config.fromEnvironment libraries.validate world.environment invocation.overrides =
        .ok config)
      (hfault : processed world invocation.file config = .error (.input source cause))
      (hline : TellsFatal .ioError none source (s!"Cannot read {source}: {cause.reason}") line) :
      ParseEnds ⟨1, "", [line], none⟩
  /-- The document is accepted, and its canonical form is all that is printed. -/
  | accepted (config : Config) (outcome : Outcome) (lines : List String) (text : String)
      (hconfig : Config.fromEnvironment libraries.validate world.environment invocation.overrides =
        .ok config)
      (houtcome : processed world invocation.file config = .ok outcome)
      (hok : outcome.isOk = true) (hlines : outcome.diagnostics.mapM diagnosticLine = .ok lines)
      (htext : outcome.irText = .ok text) : ParseEnds ⟨0, text, lines, none⟩
  /-- The document is refused. -/
  | refused (config : Config) (outcome : Outcome) (lines : List String)
      (hconfig : Config.fromEnvironment libraries.validate world.environment invocation.overrides =
        .ok config)
      (houtcome : processed world invocation.file config = .ok outcome)
      (hok : outcome.isOk = false) (hlines : outcome.diagnostics.mapM diagnosticLine = .ok lines) :
      ParseEnds ⟨2, "", lines, none⟩

/-- What a command tells of stands on one line each: no line of it holds a control below the space. -/
def Ending.IsPrinted (ending : Ending) : Prop :=
  ∀ line ∈ ending.stderr, Json.HasNoControl line.toList

/-- Nothing stops the processing of a document but an input that cannot be read. -/
def StopsForInput (world : World) (file : String) (config : Config) : Prop :=
  ∀ fault, processed world file config = .error fault → ∃ source cause, fault = .input source cause

variable {libraries world invocation} {config : Config} {outcome : Outcome}

/-- A line of JSON is printed as it is. -/
theorem Libraries.Spec.echo_line (hlibraries : libraries.Spec) {line : String}
    (h : Json.IsPrinted .oneLine line.toList) : libraries.echo line = line :=
  hlibraries.echo line (h.notMem (by decide) (by decide))

/-- Lines of JSON are printed as they are. -/
theorem Libraries.Spec.map_echo (hlibraries : libraries.Spec) {lines : List String}
    (h : ∀ line ∈ lines, Json.IsPrinted .oneLine line.toList) : lines.map libraries.echo = lines :=
  (List.map_congr_left fun line hline => hlibraries.echo_line (h line hline)).trans (List.map_id _)

/-- A canonical form is printed as it is. -/
theorem Libraries.Spec.echo_irText (hlibraries : libraries.Spec) {text : String}
    (h : outcome.irText = .ok text) : libraries.echo text = text := by
  unfold Outcome.irText at h
  split at h
  · cases h
  · exact hlibraries.echo text (Json.notMem_of_writeDocument h (by decide) (by decide))

/-- A fatal problem is told on one line, and the command ends with it. -/
theorem exists_endWith (hlibraries : libraries.Spec) (exitCode : ℕ) (problem : Problem)
    (source : String) :
    ∃ line, endWith libraries exitCode [] ⟨problem, .fatal, none, some source⟩ =
        ⟨exitCode, "", [line], none⟩ ∧
      TellsFatal problem.category problem.field source problem.message line ∧
      (⟨exitCode, "", [line], none⟩ : Ending).IsPrinted := by
  have hwritten : ¬Fails (diagnosticLine ⟨problem, .fatal, none, some source⟩) := by
    rw [fails_diagnosticLine_iff]
    nofun
  obtain ⟨line, hline⟩ := not_fails_iff.1 hwritten
  have hprinted := isPrinted_of_diagnosticLine hline
  refine ⟨line, by simp [endWith, hline, hlibraries.echo_line hprinted], ?_,
    List.forall_mem_singleton.2 (Json.isPrinted_oneLine_iff.1 hprinted)⟩
  obtain ⟨text, htext, hline⟩ := bind_eq_ok.1 hline
  obtain rfl := pure_eq_ok_iff.1 hline
  rw [TellsFatal, String.toList_ofList]
  exact htext

/-- Without a log, a command is what comes of its document. -/
theorem runWith_eq (hverbose : invocation.verbose = false) :
    runWith libraries world invocation config =
      match processed world invocation.file config with
      | .error fault => stop libraries [] fault
      | .ok outcome => conclude libraries invocation [] outcome := by
  unfold runWith processed
  rw [hverbose]
  cases readDocument world invocation.file with
  | error fault => rfl
  | ok document => rfl

/-- Where the outcome of the document of a command comes from. -/
theorem exists_processWith_of_processed (h : processed world invocation.file config = .ok outcome) :
    ∃ source text names, processWith config names source text = .ok outcome := by
  obtain ⟨⟨source, text⟩, -, h⟩ := bind_eq_ok.1 h
  obtain ⟨names, h⟩ := exists_processWith h
  exact ⟨source, text, names, h⟩

/-- A command with settings ends in one of the ways if what comes of its document is a fault of an
input. -/
theorem ends_of_fault (hlibraries : libraries.Spec) {source : String} {cause : InputFault}
    (hconfig : Config.fromEnvironment libraries.validate world.environment invocation.overrides =
      .ok config)
    (h : processed world invocation.file config = .error (.input source cause)) :
    ParseEnds libraries world invocation (stop libraries [] (.input source cause)) ∧
      (stop libraries [] (.input source cause)).IsPrinted := by
  obtain ⟨line, hend, htells, hprinted⟩ := exists_endWith hlibraries 1
    (.unreadable (Fault.input source cause).message) source
  have hstop : stop libraries [] (.input source cause) = ⟨1, "", [line], none⟩ := hend
  rw [hstop]
  exact ⟨.unreadable config source cause line hconfig h htells, hprinted⟩

/-- A command with settings ends in one of the ways if its document has an outcome. -/
theorem ends_of_outcome (hlibraries : libraries.Spec) (hverb : invocation.verb = .parse)
    (hkept : config.IsKept) (hbounded : config.IsBounded)
    (hconfig : Config.fromEnvironment libraries.validate world.environment invocation.overrides =
      .ok config)
    (h : processed world invocation.file config = .ok outcome) :
    ParseEnds libraries world invocation (conclude libraries invocation [] outcome) ∧
      (conclude libraries invocation [] outcome).IsPrinted := by
  obtain ⟨source, text, names, hprocess⟩ := exists_processWith_of_processed h
  obtain ⟨lines, hlines, hprinted⟩ :=
    exists_mapM_diagnosticLine (isWritable_of_processWith hbounded hprocess)
  have hechoed := hlibraries.map_echo hprinted
  have hall := diagnosticLines_of_mapM hlines
  have hisPrinted (line : String) (hline : line ∈ lines) :=
    Json.isPrinted_oneLine_iff.1 (hprinted line hline)
  cases hok : outcome.isOk with
  | false =>
    have hend : conclude libraries invocation [] outcome = ⟨2, "", lines, none⟩ := by
      simp [conclude, hall, hechoed, hok]
    rw [hend]
    exact ⟨.refused config outcome lines hconfig h hok hlines, hisPrinted⟩
  | true =>
    obtain ⟨written, hwritten⟩ := exists_irText hkept hbounded hprocess hok
    have hend : conclude libraries invocation [] outcome = ⟨0, written, lines, none⟩ := by
      simp [conclude, hall, hechoed, hok, output, hverb, hwritten, hlibraries.echo_irText hwritten]
    rw [hend]
    exact ⟨.accepted config outcome lines written hconfig h hok hlines hwritten, hisPrinted⟩

/-- A command that prints the canonical form of a document without a log ends in one of four ways, if
nothing stops it but an input that cannot be read. What it tells of is on a line of its own each. -/
theorem ends_of_run (libraries : Libraries) (hlibraries : libraries.Spec) (world : World)
    (invocation : Invocation) (hentered : invocation.IsEntered) (hverb : invocation.verb = .parse)
    (hverbose : invocation.verbose = false)
    (hstops : ∀ config,
      Config.fromEnvironment libraries.validate world.environment invocation.overrides =
        .ok config → StopsForInput world invocation.file config) :
    ParseEnds libraries world invocation (run libraries world invocation) ∧
      (run libraries world invocation).IsPrinted := by
  unfold run
  split
  · next config hconfig =>
    obtain ⟨hkept, hbounded⟩ :=
      Config.isBounded_of_fromEnvironment hlibraries.validate hentered hconfig
    rw [runWith_eq hverbose]
    split
    · next fault hfault =>
      obtain ⟨source, cause, rfl⟩ := hstops config hconfig fault hfault
      exact ends_of_fault hlibraries hconfig hfault
    · next outcome houtcome =>
      exact ends_of_outcome hlibraries hverb hkept hbounded hconfig houtcome
  · -- Settings that are refused stop the command before it looks for a document.
    next fault hfault =>
    obtain ⟨line, hend, htells, hprinted⟩ := exists_endWith hlibraries 2
      (.configuration fault.message) "environment"
    rw [hend]
    exact ⟨.misconfigured fault line hfault htells, hprinted⟩

/-- A document with a parameter that means nothing, and a limit for the number of its lines. -/
def bellWorld : World where
  files := Folder.read [("bells.mmsl", "[A]\n<bells at=2 repeat=3>\nla\n".toUTF8.toList)]
  stdin := []
  environment := [("MMSL_MAX_LINES", "12")]

/-- Five times, which is as often as a cue may be repeated. -/
def fiveTimes : Count := ⟨5, by decide⟩

/-- The command that prints the canonical form of the document, with that limit for its cues. -/
def bellInvocation : Invocation where
  verbose := false
  verb := .parse
  file := "bells.mmsl"
  strict := false
  bpm := none
  beatsPerBar := none
  catalogPath := none
  maxLines := none
  maxRepeat := some fiveTimes
  fps := none

/-- The settings that the environment and the command give. -/
def bellConfig : Config :=
  { Config.standard with
    defaultBpm := ⟨.real (.finite 120), by decide +kernel⟩
    maxLines := some ⟨12, by decide⟩
    maxRepeat := fiveTimes }

/-- The fields that the environment and the command give. -/
def bellFields : List (String × Value) := [
  ("max_repeat", .int 5), ("strict", .number (.bool false)),
  ("default_bpm", .number (.real (.finite 120))), ("max_lines", .int 12)]

/-- Libraries that know these fields alone, and print every text as it is. -/
def bellLibraries : Libraries where
  validate fields := if fields = bellFields then .ok bellConfig else .error "unknown fields"
  echo text := text

/-- The libraries are as they are needed: each quantity is its field, or standard without one. -/
theorem spec_bellLibraries : bellLibraries.Spec := by
  have hvalidate (fields : List (String × Value)) (config : Config)
      (h : bellLibraries.validate fields = .ok config) : fields = bellFields ∧ config = bellConfig := by
    unfold bellLibraries at h
    dsimp only at h
    split_ifs at h with hfields
    exact ⟨hfields, (Except.ok.inj h).symm⟩
  refine ⟨⟨fun fields config h => ?_, fun fields config h => ?_⟩, fun _ _ => rfl⟩
  · obtain ⟨rfl, rfl⟩ := hvalidate fields config h
    decide +kernel
  · obtain ⟨rfl, rfl⟩ := hvalidate fields config h
    have hgiven : ∀ quantity ∈ Config.quantityKinds, bellFields.lookup quantity.1 = none ∨
        bellFields.lookup quantity.1 = bellConfig.quantities.lookup quantity.1 := by
      decide +kernel
    intro quantity hquantity value hvalue _
    rcases hgiven quantity hquantity with hnone | hsame
    · cases hnone.symm.trans hvalue
    · exact hsame.symm.trans hvalue

/-- A document that is accepted ends the command with its canonical form, one of the four ways. -/
theorem ends_of_run_bellWorld :
    bellLibraries.Spec ∧ bellInvocation.IsEntered ∧
      (∃ config, Config.fromEnvironment bellLibraries.validate bellWorld.environment
        bellInvocation.overrides = .ok config ∧ StopsForInput bellWorld "bells.mmsl" config) ∧
      (run bellLibraries bellWorld bellInvocation).exitCode = 0 ∧
      ParseEnds bellLibraries bellWorld bellInvocation (run bellLibraries bellWorld bellInvocation) ∧
      (run bellLibraries bellWorld bellInvocation).IsPrinted := by
  have hlimit : fiveTimes.val < 10 ^ digitLimit := by decide +kernel
  have hentered : bellInvocation.IsEntered :=
    ⟨nofun, nofun, nofun, fun count hcount => by obtain rfl := Option.some.inj hcount; exact hlimit⟩
  have hconfig : Config.fromEnvironment bellLibraries.validate bellWorld.environment
      bellInvocation.overrides = .ok bellConfig := by
    have hfields : Config.givenFields bellWorld.environment bellInvocation.overrides =
        .ok bellFields := by
      decide +kernel
    rw [Config.fromEnvironment, hfields, ok_bind]
    rfl
  have hprocessed : yields (processed bellWorld "bells.mmsl" bellConfig) Outcome.isOk = true := by
    decide +kernel
  have hstops : StopsForInput bellWorld "bells.mmsl" bellConfig := by
    obtain ⟨outcome, houtcome, -⟩ := exists_of_yields hprocessed
    intro fault hfault
    cases hfault.symm.trans houtcome
  refine ⟨spec_bellLibraries, hentered, ⟨bellConfig, hconfig, hstops⟩, by decide +kernel,
    ends_of_run bellLibraries spec_bellLibraries bellWorld bellInvocation hentered rfl rfl
      fun config hfound => ?_⟩
  obtain rfl := Except.ok.inj (hconfig.symm.trans hfound)
  exact hstops

end Command

end CueSheet
