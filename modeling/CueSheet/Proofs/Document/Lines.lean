import CueSheet.Document

/-!
# The lines of a document

A document is looked at as its lines with their numbers. Its heading is what stands in front of the
first line with content or start of a section; the headers in it are taken in one after the other.
-/

namespace CueSheet

/-- The header of a key among headers with one more behind them. -/
theorem Headers.get?_concat (headers : Headers) (header : Header) (key : HeaderKey) :
    Headers.get? (headers ++ [header]) key =
      (headers.get? key).or (if header.key = key then some header else none) := by
  simp [get?, List.find?_append]

namespace Document

/-- A line with its number. -/
abbrev NumberedLine := Int × Line

/-- Lines with their numbers, from the given one on. -/
def numbered (first : Int) : List Line → List NumberedLine
  | [] => []
  | line :: lines => (first, line) :: numbered (first + 1) lines

/-- The lines of a text with their numbers. -/
def numberedLines (text : List Char) : List NumberedLine := numbered 1 (linesOf text)

/-- Whether a line says something that belongs into a section. -/
def isContent : Line → Bool
  | .performanceLyric .. | .performance _ | .cue _ | .lyric .. => true
  | .blank | .header .. | .sectionStart _ => false

/-- Whether a line starts a section. -/
def startsSection : Line → Bool
  | .sectionStart _ => true
  | _ => false

/-- Takes in a line of the heading. -/
def takeIn (headers : Headers) : NumberedLine → Headers
  | (number, .header key value) => (headers.add key value number).1
  | _ => headers

/-- The lines in front of the first line with content or start of a section. -/
def heading (lines : List NumberedLine) : List NumberedLine :=
  lines.takeWhile fun line => !isContent line.2 && !startsSection line.2

/-- The headers that are taken in from the heading, behind those that are there already. -/
def headersFrom (headers : Headers) (lines : List NumberedLine) : Headers :=
  (heading lines).foldl takeIn headers

/-- The headers of a document. -/
def headersOf (lines : List NumberedLine) : Headers := headersFrom [] lines

@[simp] theorem headersFrom_nil (headers : Headers) : headersFrom headers [] = headers := rfl

/-- A line with content ends the heading. -/
theorem headersFrom_cons_content (headers : Headers) {line : NumberedLine}
    (lines : List NumberedLine) (h : isContent line.2 = true) :
    headersFrom headers (line :: lines) = headers := by
  simp [headersFrom, heading, h]

/-- A start of a section ends the heading. -/
theorem headersFrom_cons_sectionStart (headers : Headers) {line : NumberedLine}
    (lines : List NumberedLine) (h : startsSection line.2 = true) :
    headersFrom headers (line :: lines) = headers := by
  simp [headersFrom, heading, h]

/-- A blank line or a header is taken in. -/
theorem headersFrom_cons_other (headers : Headers) {line : NumberedLine}
    (lines : List NumberedLine) (hcontent : isContent line.2 = false)
    (hstart : startsSection line.2 = false) :
    headersFrom headers (line :: lines) = headersFrom (takeIn headers line) lines := by
  simp [headersFrom, heading, hcontent, hstart]

/-- A line with content starts no section. -/
theorem startsSection_of_isContent {line : Line} (h : isContent line = true) :
    startsSection line = false := by
  cases line <;> simp_all [isContent, startsSection]

/-! ## Runs -/

/-- Lines that are run one after the other are run like the first ones and, from where these end,
like the others. -/
theorem run_append {ρ : Rounding} {config : Config} (reading : Reading)
    (number : Int) (lines more : List Line) :
    run ρ config reading number (lines ++ more) = (do
      let (next, diagnostics) ← run ρ config reading number lines
      let (last, others) ← run ρ config next (number + lines.length) more
      return (last, diagnostics ++ others)) := by
  induction lines generalizing reading number with
  | nil => simp [run]
  | cons line lines ih =>
    have hnumber : number + 1 + (lines.length : Int) = number + (line :: lines).length := by
      rw [List.length_cons]
      omega
    rw [List.cons_append, run, run]
    simp only [ih, bind_assoc, pure_bind, hnumber, List.append_assoc]

end Document

end CueSheet
