import CueSheet.Document
import CueSheet.Proofs.Cue.Details
import CueSheet.Proofs.Header.Resolve

/-!
# What is reported on a line and about a header

What a line reports by itself is about its own form: its marker, the quotes and the parameters of its
cue, or its place among the headers. Such a report is a warning, and no report of an empty section.
What is reported when headers are resolved is about the value of one of them, and stands on its line
(`Document.of_mem_resolve`).
-/

namespace CueSheet.Document

/-- Whether a problem is about the form of a line. -/
def isLineProblem : Problem → Bool
  | .malformedMarker .. | .unterminatedQuote | .parameterWithoutKey _ | .duplicateParameter _
  | .lateHeader _ | .unknownHeader _ | .repeatedHeader .. => true
  | _ => false

/-- Problems about the form of a line are warnings. -/
theorem severity_of_isLineProblem {problem : Problem} (h : isLineProblem problem = true) :
    problem.severity = .warning := by
  cases problem <;> first | rfl | cases h

/-- Whether a problem is about the quotes or the parameters of a cue. -/
def isCueProblem : Problem → Bool
  | .unterminatedQuote | .parameterWithoutKey _ | .duplicateParameter _ => true
  | _ => false

/-- Whether a problem is about the value of a header. -/
def isHeaderProblem : Problem → Bool
  | .timeSignature _ | .tempoHeader .. | .tempoMapEntry _ => true
  | _ => false

/-- A problem is one that reading reports. -/
inductive IsReadProblem (problem : Problem) : Prop where
  /-- It is about the form of a line. -/
  | line (h : isLineProblem problem = true)
  /-- It is about the value of a header. -/
  | header (h : isHeaderProblem problem = true)
  /-- It is about a section without items. -/
  | emptySection (label : String) (h : problem = .emptySection label)

/-- A problem about the form of a cue is one about the form of its line. -/
theorem isLineProblem_of_isCueProblem {problem : Problem} (h : isCueProblem problem = true) :
    isLineProblem problem = true := by
  cases problem <;> first | rfl | cases h

/-- What a token adds to a cue reports problems about the form of the cue. -/
theorem add_problems {ρ : Rounding} {bpm beatsPerBar : Value} {details : CueBody.Details}
    {token : List Char} {details' : CueBody.Details}
    (hdetails : ∀ problem ∈ details.problems, isCueProblem problem = true)
    (h : details.add ρ bpm beatsPerBar token = .ok details') :
    ∀ problem ∈ details'.problems, isCueProblem problem = true := by
  cases CueBody.Details.adds_of_add h with
  | argument =>
    refine List.forall_mem_append.2 ⟨hdetails, fun problem hproblem => ?_⟩
    obtain ⟨-, hkeyless⟩ := Option.ite_none_right_eq_some.1 (Option.mem_toList.1 hproblem)
    obtain rfl := Option.some.inj hkeyless
    rfl
  | repeated => exact List.forall_mem_append.2 ⟨hdetails, List.forall_mem_singleton.2 rfl⟩
  | kept => exact hdetails

/-- Reading a cue reports problems about its form. -/
theorem read_problems {ρ : Rounding} {bpm beatsPerBar : Value} {body : List Char} {read : CueBody}
    (h : CueBody.read ρ bpm beatsPerBar body = .ok read) :
    ∀ problem ∈ read.problems, isCueProblem problem = true := by
  obtain ⟨details, hdetails, h⟩ := bind_eq_ok.1 h
  obtain rfl := Except.ok.inj h
  have hkept := foldlM_preserves
    (P := fun details => ∀ problem ∈ details.problems, isCueProblem problem = true)
    (fun _ _ _ _ hd ha => add_problems hd ha) (by simp [CueBody.Details.empty]) hdetails
  intro problem hproblem
  rcases List.mem_append.1 hproblem with hproblem | hproblem
  · split at hproblem
    · rw [List.mem_singleton.1 hproblem]
      rfl
    · simp at hproblem
  · exact hkept problem hproblem

/-- The items of a line come with problems about the form of a cue. -/
theorem lineItems_cueProblems {ρ : Rounding} {settings : Settings} {number : Int} {line : Line}
    {items : List Item} {problems : List Problem}
    (h : lineItems ρ settings number line = .ok (items, problems)) :
    ∀ problem ∈ problems, isCueProblem problem = true := by
  cases line with
  | cue body =>
    obtain ⟨read, hread, h⟩ := bind_eq_ok.1 h
    obtain ⟨-, rfl⟩ := Prod.mk.inj (Except.ok.inj h)
    exact read_problems hread
  | blank | header | sectionStart | performanceLyric | performance | lyric =>
    obtain ⟨-, rfl⟩ := Prod.mk.inj (Except.ok.inj h)
    simp

/-- The items of a line come with problems about its form. -/
theorem lineItems_problems {ρ : Rounding} {settings : Settings} {number : Int} {line : Line}
    {items : List Item} {problems : List Problem}
    (h : lineItems ρ settings number line = .ok (items, problems)) :
    ∀ problem ∈ problems, isLineProblem problem = true := fun problem hproblem =>
  isLineProblem_of_isCueProblem (lineItems_cueProblems h problem hproblem)

/-- Taking in a header reports problems about the form of its line. -/
theorem headers_add_problems (headers : Headers) (name value : String) (line : Int) :
    ∀ problem ∈ (headers.add name value line).2, isLineProblem problem = true := by
  unfold Headers.add
  split
  · simp [isLineProblem]
  · split <;> simp [isLineProblem]

/-- A malformed marker is a problem about the form of a line. -/
theorem problem?_isLineProblem (line : Line) :
    ∀ problem ∈ line.problem?.toList, isLineProblem problem = true := by
  unfold Line.problem?
  split <;> simp [isLineProblem]

/-- Reading a number above zero reports problems about the value of a header. -/
theorem readPositive_problems {ρ : Rounding} {header : TempoHeader} {value : String}
    {number : Option Number} {problems : List Problem}
    (h : Settings.readPositive ρ header value = .ok (number, problems)) :
    ∀ problem ∈ problems, isHeaderProblem problem = true := by
  unfold Settings.readPositive at h
  split at h
  · obtain ⟨-, rfl⟩ := Prod.mk.inj (Except.ok.inj h)
    simp [isHeaderProblem]
  · split at h
    · obtain ⟨-, rfl⟩ := Prod.mk.inj (Except.ok.inj h)
      simp [isHeaderProblem]
    · obtain ⟨number, -, h⟩ := bind_eq_ok.1 h
      dsimp only at h
      split at h <;> obtain ⟨-, rfl⟩ := Prod.mk.inj (Except.ok.inj h) <;> simp [isHeaderProblem]

/-- Reading a time signature reports problems about the value of a header. -/
theorem readSignature_problems {value : String} {signature : Option (String × Nat)}
    {problems : List Problem} (h : Settings.readSignature value = .ok (signature, problems)) :
    ∀ problem ∈ problems, isHeaderProblem problem = true := by
  unfold Settings.readSignature at h
  dsimp only at h
  split at h
  · obtain ⟨-, rfl⟩ := Prod.mk.inj (Except.ok.inj h)
    simp [isHeaderProblem]
  · obtain ⟨beats, -, h⟩ := bind_eq_ok.1 h
    split at h
    · obtain ⟨-, rfl⟩ := Prod.mk.inj (Except.ok.inj h)
      simp [isHeaderProblem]
    · obtain ⟨unit, -, h⟩ := bind_eq_ok.1 h
      split at h <;> obtain ⟨-, rfl⟩ := Prod.mk.inj (Except.ok.inj h) <;> simp [isHeaderProblem]

/-- Reading tempo changes reports problems about the value of a header. -/
theorem readTempoMap_problems {ρ : Rounding} {value : String} {changes : List (Segment Number)}
    {problems : List Problem} (h : Settings.readTempoMap ρ value = .ok (changes, problems)) :
    ∀ problem ∈ problems, isHeaderProblem problem = true := by
  obtain ⟨entries, -, h⟩ := bind_eq_ok.1 h
  split at h <;> obtain ⟨-, rfl⟩ := Prod.mk.inj (Except.ok.inj h) <;> simp [isHeaderProblem]

/-! ## Headers -/

variable {headers : Headers} {diagnostics : List Diagnostic}

/-- What is reported on a header is about its value, if that is what its reader reports. -/
theorem of_mem_readsHeader {α : Type} {key : HeaderKey}
    {read : String → Except Fault (α × List Problem)} {absent result : α}
    (hread : ∀ value a problems, read value = .ok (a, problems) →
      ∀ problem ∈ problems, isHeaderProblem problem = true)
    (h : Settings.ReadsHeader headers key read absent result diagnostics) :
    ∀ d ∈ diagnostics, ∃ header ∈ headers, ∃ problem,
      isHeaderProblem problem = true ∧ d = .onLine header.line problem := by
  intro d hd
  cases h with
  | absent => cases hd
  | present hfound hproblems =>
    obtain ⟨problem, hproblem, rfl⟩ := List.mem_map.1 hd
    exact ⟨_, List.mem_of_find?_eq_some hfound, problem, hread _ _ _ hproblems problem hproblem, rfl⟩

/-- What is reported when headers are resolved is about the value of one of them. -/
theorem of_mem_resolve {ρ : Rounding} {config : Config} {settings : Settings}
    (h : Settings.resolve ρ config headers = .ok (settings, diagnostics)) :
    ∀ d ∈ diagnostics, ∃ header ∈ headers, ∃ problem,
      isHeaderProblem problem = true ∧ d = .onLine header.line problem := by
  obtain ⟨hchanges, hsignature, hbpm, hbeats⟩ := Settings.resolvesTo_of_resolve h
  have hchanges := of_mem_readsHeader (fun _ _ _ => readTempoMap_problems) hchanges
  have hsignature := of_mem_readsHeader (fun _ _ _ => readSignature_problems) hsignature
  have hbpm := of_mem_readsHeader (fun _ _ _ => readPositive_problems) hbpm
  have hbeats := of_mem_readsHeader (fun _ _ _ => readPositive_problems) hbeats
  exact List.forall_mem_append.2
    ⟨List.forall_mem_append.2 ⟨List.forall_mem_append.2 ⟨hchanges, hsignature⟩, hbpm⟩, hbeats⟩

end CueSheet.Document
