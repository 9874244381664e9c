import CueSheet.Proofs.Document.Problems

/-!
# Reports of empty sections

Only the closing of a section reports an empty section. Everything else that is reported, about the
form of lines and about the values of headers, is something else.
-/

namespace CueSheet.Document

/-- Whether a problem is that a section has no items. -/
def isEmptySection : Problem → Bool
  | .emptySection _ => true
  | _ => false

/-- Whether a diagnostic reports a section without items. -/
def reportsEmpty (diagnostic : Diagnostic) : Bool := isEmptySection diagnostic.problem

/-- Problems on a line of which none is an empty section report no empty section. -/
theorem filter_onLine_eq_nil {problems : List Problem} (line : Int)
    (h : ∀ problem ∈ problems, isEmptySection problem = false) :
    (problems.map (Diagnostic.onLine line)).filter reportsEmpty = [] := by
  simpa [List.filter_eq_nil_iff, reportsEmpty, Diagnostic.onLine] using h

/-- Problems about the form of a line report no empty section. -/
theorem filter_line_problems {problems : List Problem} (line : Int)
    (h : ∀ problem ∈ problems, isLineProblem problem = true) :
    (problems.map (Diagnostic.onLine line)).filter reportsEmpty = [] := by
  refine filter_onLine_eq_nil line fun problem hproblem => ?_
  have hline := h problem hproblem
  cases problem <;> first | rfl | cases hline

/-- Resolving the headers reports no empty section. -/
theorem filter_resolve {ρ : Rounding} {config : Config} {headers : Headers} {settings : Settings}
    {diagnostics : List Diagnostic}
    (h : Settings.resolve ρ config headers = .ok (settings, diagnostics)) :
    diagnostics.filter reportsEmpty = [] := by
  refine List.filter_eq_nil_iff.2 fun d hd => ?_
  obtain ⟨header, -, problem, hproblem, rfl⟩ := of_mem_resolve h d hd
  cases problem <;> first | exact Bool.false_ne_true | cases hproblem

end CueSheet.Document
