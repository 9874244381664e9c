import CueSheet.Process
import CueSheet.Proofs.Agree
import CueSheet.Proofs.Document.Places
import CueSheet.Proofs.Validation.Fields

/-!
# Strict checks raise severities

A document can be processed with strict checks or without. Strictness decides on the severity of
what is unknown, a cue or a parameter, and on nothing else (`process_agree_strict`). It is looked at
in one place, where the problems of a cue become diagnostics. Reading a document does not look at
it, because it looks at the settings only to resolve headers (`Document.read_congr`), and neither
reading nor the check of the song as a whole reports anything unknown. So the diagnostics of both
runs stand side by side (`Diagnostic.Raised`), and as no severity becomes fatal or stops being so,
both runs go the same way on them.
-/

namespace CueSheet

/-- The settings of a run with strict checks or without. -/
def Config.withStrict (config : Config) (strict : Bool) : Config := { config with strict }

/-! ## Reading -/

namespace Document

variable {ρ : Rounding} {config config' : Config}

section Resolve

variable (hresolve : ∀ headers,
  Settings.resolve ρ config headers = Settings.resolve ρ config' headers)

include hresolve

/-- Settings decide on the end of the heading by what they resolve headers to. -/
theorem leaveHeading_congr (headers : Headers) (number : ℤ) (line : Line) :
    leaveHeading ρ config headers number line = leaveHeading ρ config' headers number line := by
  unfold leaveHeading
  rw [hresolve]

/-- They decide on a line by that. -/
theorem step_congr (reading : Reading) (number : ℤ) (line : Line) :
    step ρ config reading number line = step ρ config' reading number line := by
  unfold step readLine
  simp only [leaveHeading_congr hresolve]

/-- They decide on lines by that. -/
theorem run_congr (reading : Reading) (number : ℤ) (lines : List Line) :
    run ρ config reading number lines = run ρ config' reading number lines := by
  induction lines generalizing reading number with
  | nil => rfl
  | cons line lines ih => simp only [run, step_congr hresolve, ih]

/-- Settings that resolve all headers alike read all documents alike. -/
theorem read_congr (text : List Char) : read ρ config text = read ρ config' text := by
  have hfinish (reading : Reading) : finish ρ config reading = finish ρ config' reading := by
    cases reading with
    | heading headers => simp only [finish, hresolve]
    | body => rfl
  simp only [read, run_congr hresolve, hfinish]

end Resolve

/-- Whether checks are strict does not matter for the reading of a document. -/
theorem read_withStrict (strict : Bool) (text : List Char) :
    read ρ (config.withStrict strict) text = read ρ config text := by
  have hresolve (headers : Headers) : Settings.resolve ρ (config.withStrict strict) headers =
      Settings.resolve ρ config headers := rfl
  exact read_congr hresolve text

end Document

/-! ## Diagnostics -/

/-- Whether a problem is an unknown cue, or a parameter that the validator does not recognize. -/
def Problem.isUnknown (problem : Problem) : Bool :=
  problem.category = .unknownCue ||
    match problem with
    | .unrecognizedParameter _ => true
    | _ => false

/-- What is unknown is what a strict check treats as an error. -/
theorem Problem.isUnknown_eq (problem : Problem) : problem.isUnknown = problem.isStrictable := by
  cases problem <;> rfl

/-- Something unknown is a warning where nothing makes it stricter. -/
theorem severity_of_isUnknown {problem : Problem} (h : problem.isUnknown = true) :
    problem.severity = .warning := by
  cases problem <;> first | rfl | cases h

/-- What is wrong with a song as a whole is nothing unknown. -/
theorem isUnknown_of_isSongProblem {problem : Problem}
    (h : Validation.isSongProblem problem = true) : problem.isUnknown = false := by
  cases problem <;> first | rfl | cases h

/-- Reading reports nothing unknown. -/
theorem isUnknown_of_isReadProblem {problem : Problem} (h : Document.IsReadProblem problem) :
    problem.isUnknown = false := by
  obtain h | h | ⟨label, rfl⟩ := h
  · cases problem <;> first | rfl | cases h
  · cases problem <;> first | rfl | cases h
  · rfl

/-- A diagnostic without strict checks and the one with strict checks are the same, but if the
problem is something unknown, the first is a warning and the second an error. -/
structure Diagnostic.Raised (lenient strict : Diagnostic) : Prop where
  /-- The problems are the same. -/
  problem : lenient.problem = strict.problem
  /-- The lines are the same. -/
  line : lenient.line = strict.line
  /-- The sources are the same. -/
  source : lenient.source = strict.source
  /-- What is unknown becomes an error. -/
  unknown : lenient.problem.isUnknown = true →
    lenient.severity = .warning ∧ strict.severity = .error
  /-- Other severities are the same. -/
  other : lenient.problem.isUnknown = false → lenient.severity = strict.severity

namespace Diagnostic

variable {lenient strict : Diagnostic} {problem : Problem}

/-- A problem that is not unknown is the same under both checks. -/
theorem raised_onLine (line : ℤ) (h : problem.isUnknown = false) :
    (onLine line problem).Raised (onLine line problem) :=
  ⟨rfl, rfl, rfl, fun hunknown => absurd (h.symm.trans hunknown) Bool.false_ne_true, fun _ => rfl⟩

/-- A problem is reported under a strict check as it is under another one, or raised. -/
theorem raised_check (line : ℤ) (problem : Problem) :
    (check false line problem).Raised (check true line problem) := by
  refine ⟨rfl, rfl, rfl, fun hunknown => ?_, fun hother => ?_⟩
  · have hwarning : problem.severity = .warning := severity_of_isUnknown hunknown
    have hstrictable : problem.isStrictable = true := problem.isUnknown_eq.symm.trans hunknown
    simp [check, hstrictable, hwarning]
  · have hlax : problem.isStrictable = false := problem.isUnknown_eq.symm.trans hother
    simp [check, hlax]

/-- A source does not change what is raised. -/
theorem Raised.within (h : lenient.Raised strict) (source : String) :
    (within source lenient).Raised (within source strict) :=
  ⟨h.problem, h.line, rfl, h.unknown, h.other⟩

/-- A raised diagnostic is fatal if it was before. -/
theorem Raised.isFatal_eq (h : lenient.Raised strict) : lenient.isFatal = strict.isFatal := by
  cases hunknown : lenient.problem.isUnknown with
  | false => rw [isFatal, isFatal, h.other hunknown]
  | true =>
    obtain ⟨hlenient, hstrict⟩ := h.unknown hunknown
    rw [isFatal, isFatal, hlenient, hstrict]
    rfl

/-- A raised diagnostic is an error if it was before. -/
theorem Raised.isError (h : lenient.Raised strict) (herror : lenient.isError = true) :
    strict.isError = true := by
  cases hunknown : lenient.problem.isUnknown with
  | false => rwa [Diagnostic.isError, ← h.other hunknown]
  | true =>
    rw [Diagnostic.isError, (h.unknown hunknown).2]
    rfl

end Diagnostic

/-- Raised diagnostics are fatal if they were before. -/
theorem any_isFatal_eq {diagnostics diagnostics' : List Diagnostic}
    (h : List.Forall₂ Diagnostic.Raised diagnostics diagnostics') :
    diagnostics.any Diagnostic.isFatal = diagnostics'.any Diagnostic.isFatal := by
  induction h with
  | nil => rfl
  | cons hfirst _ ih => rw [List.any_cons, List.any_cons, hfirst.isFatal_eq, ih]

/-! ## Validation -/

variable {config : Config} {names : Option Namespace} {song : Song}

/-- The diagnostics of an item are raised. -/
theorem Validation.itemDiagnostics_agree_strict (item : Item) :
    Agree Eq (List.Forall₂ Diagnostic.Raised)
      (itemDiagnostics (config.withStrict false) names item)
      (itemDiagnostics (config.withStrict true) names item) := by
  cases item with
  | performance | lyric | raw => exact .ok .nil
  | cue cue line =>
    unfold itemDiagnostics
    refine Agree.bind_same (.refl fun _ _ => rfl) fun problems _ => .ok ?_
    rw [List.forall₂_map_left_iff, List.forall₂_map_right_iff, List.forall₂_same]
    exact fun problem _ => Diagnostic.raised_check line problem

/-- The diagnostics of a song are raised. -/
theorem validate_agree_strict (ρ : Rounding) (song : Song) :
    Agree Eq (List.Forall₂ Diagnostic.Raised) (validate ρ (config.withStrict false) names song)
      (validate ρ (config.withStrict true) names song) := by
  unfold validate
  refine Agree.bind_same (.refl fun _ _ => rfl) fun whole hwhole => ?_
  refine Agree.bind_same (.refl fun _ _ => rfl) fun tempo htempo => ?_
  refine Agree.bind (Agree.mapM (List.forall₂_same.2 fun item _ =>
    Validation.itemDiagnostics_agree_strict item)) fun found found' hfound => .ok ?_
  refine List.rel_append ?_ (List.rel_flatten hfound)
  rw [List.forall₂_map_left_iff, List.forall₂_map_right_iff, List.forall₂_same]
  have hsong := Validation.isSongProblem_of_mem hwhole htempo
  exact fun problem hproblem =>
    Diagnostic.raised_onLine 1 (isUnknown_of_isSongProblem (hsong problem hproblem))

/-! ## Processing -/

/-- An outcome without strict checks and the one with strict checks are the same but for severities
that are raised. -/
structure Outcome.Raised (lenient strict : Outcome) : Prop where
  /-- The documents are the same. -/
  source : lenient.source = strict.source
  /-- What is made of the document is the same. -/
  content : lenient.content = strict.content
  /-- The limits of repeats are the same. -/
  maxRepeat : lenient.maxRepeat = strict.maxRepeat
  /-- The diagnostics are raised one by one. -/
  diagnostics : List.Forall₂ Diagnostic.Raised lenient.diagnostics strict.diagnostics

namespace Outcome

variable {lenient strict : Outcome}

/-- Diagnostics that are raised come to an outcome that is raised. -/
theorem raised_stamp (config : Config) (source : String) (content : Option Content)
    {diagnostics diagnostics' : List Diagnostic}
    (h : List.Forall₂ Diagnostic.Raised diagnostics diagnostics') :
    (stamp (config.withStrict false) source diagnostics content).Raised
      (stamp (config.withStrict true) source diagnostics' content) := by
  refine ⟨rfl, rfl, rfl, ?_⟩
  unfold stamp
  rw [List.forall₂_map_left_iff, List.forall₂_map_right_iff]
  exact h.imp fun _ _ hraised => hraised.within source

/-- A document that is accepted with strict checks is accepted without. -/
theorem Raised.isOk (h : lenient.Raised strict)
    (hok : strict.isOk = true) : lenient.isOk = true := by
  unfold Outcome.isOk at *
  rw [Bool.and_eq_true, Bool.not_eq_true', List.any_eq_false] at *
  refine ⟨h.content ▸ hok.1, fun d hd herror => ?_⟩
  obtain ⟨d', hd', hraised⟩ := exists_of_mem_left h.diagnostics hd
  exact hok.2 d' hd' (hraised.isError herror)

end Outcome

/-- The outcomes of a text that is read are raised. -/
theorem processLines_agree_strict (config : Config) (names : Option Namespace) (source : String)
    (text : List Char) :
    Agree Eq Outcome.Raised (processLines (config.withStrict false) names source text)
      (processLines (config.withStrict true) names source text) := by
  unfold processLines
  rw [Document.read_withStrict, Document.read_withStrict]
  refine Agree.bind_same (.refl fun _ _ => rfl) fun document hdocument => ?_
  refine (validate_agree_strict .binary64 document.song).bind fun found found' hfound => ?_
  -- What is reported while reading is never about unknown names, so nothing of it is raised.
  have hread : List.Forall₂ Diagnostic.Raised document.diagnostics document.diagnostics := by
    rw [List.forall₂_same]
    intro d hd
    obtain ⟨line, problem, -, hproblem, rfl⟩ := (Document.isOn_read hdocument).2 d hd
    exact Diagnostic.raised_onLine line (isUnknown_of_isReadProblem hproblem)
  have hall := List.rel_append hread hfound
  dsimp only
  rw [any_isFatal_eq hall]
  split_ifs
  · exact .ok (Outcome.raised_stamp config source none hall)
  · cases TempoMap.ofSong .binary64 document.song with
    | ok map =>
      refine Agree.bind_same (.refl fun _ _ => rfl) fun ir _ => .ok ?_
      exact Outcome.raised_stamp config source _ hall
    | error fault =>
      cases fault with
      | conflict why start =>
        have hconflict : (Diagnostic.onLine 1 (.tempoMap why)).Raised (.onLine 1 (.tempoMap why)) :=
          Diagnostic.raised_onLine 1 rfl
        exact .ok (Outcome.raised_stamp config source none
          (List.rel_append hall (.cons hconflict .nil)))
      | _ => exact .fault rfl

/-- The outcomes of a text are raised, given the namespace of known cues. -/
theorem processWith_agree_strict (config : Config) (names : Option Namespace) (source : String)
    (text : List Char) :
    Agree Eq Outcome.Raised (processWith (config.withStrict false) names source text)
      (processWith (config.withStrict true) names source text) := by
  have hexcess (strict : Bool) :
      excessLines? (config.withStrict strict) text = excessLines? config text := rfl
  unfold processWith
  rw [hexcess, hexcess]
  cases excessLines? config text with
  | none => exact processLines_agree_strict config names source text
  | some excess =>
    refine Agree.bind_same (.refl fun _ _ => rfl) fun shown _ => .ok ?_
    exact Outcome.raised_stamp config source none (.cons (Diagnostic.raised_onLine _ rfl) .nil)

/-- Strict checks raise severities and do nothing else: a text is processed with strict checks as it
is without, to the same content, and with the same diagnostics but for unknown cues and parameters,
which are warnings without strict checks and errors with them. So what is accepted with strict
checks is accepted without, and what is fatal is the same. -/
theorem process_agree_strict (files : Files) (config : Config) (names : Option Namespace)
    (source : String) (text : List Char) :
    Agree Eq (fun lenient strict => lenient.Raised strict ∧
        (strict.isOk = true → lenient.isOk = true) ∧
        lenient.diagnostics.any Diagnostic.isFatal = strict.diagnostics.any Diagnostic.isFatal)
      (process files (config.withStrict false) names source text)
      (process files (config.withStrict true) names source text) := by
  have hnames (strict : Bool) :
      (config.withStrict strict).namespace? files = config.namespace? files := rfl
  have hwith (known : Option Namespace) :=
    (processWith_agree_strict config known source text).mono fun lenient strict h =>
      (⟨h, h.isOk, any_isFatal_eq h.diagnostics⟩ : lenient.Raised strict ∧ _ ∧ _)
  unfold process
  rw [hnames, hnames]
  cases names with
  | some known => exact hwith (some known)
  | none => exact Agree.bind_same (.refl fun _ _ => rfl) fun known _ => hwith known

end CueSheet
