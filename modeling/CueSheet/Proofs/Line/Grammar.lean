import CueSheet.Proofs.Line
import CueSheet.Proofs.Lists

/-!
# The kind of a line by the grammar of lines

A marked line is written in one of five forms (`Line.IsMarked`). A line is blank, or it is marked, or
it is a lyric, and the kind that it is read as is the one that it has (`Line.IsKind`).

Each form has a test, which finds exactly the lines that are written in it. The character in front
tells all forms apart but the two of performance directions, and of these one asks for a lyric behind
the closing mark and the other for nothing. So no line passes two tests (`Line.IsMarked.form_eq`),
and they can be made in every order.
-/

namespace CueSheet

open Text (strip stripStart collapse lower)

/-- The character that opens the lines of a marker. -/
def Marker.mark : Marker → Char
  | header => '@'
  | sectionStart => '['
  | performance => '('
  | cue => '<'

namespace Line

/-- The forms of marked lines. -/
inductive Form where
  /-- A key and a value. -/
  | header
  /-- The start of a section. -/
  | sectionStart
  /-- A performance direction with a lyric behind it. -/
  | performanceLyric
  /-- A performance direction alone. -/
  | performance
  /-- A cue. -/
  | cue
deriving DecidableEq

/-- The grammar of marked lines: a line without blanks at its ends is written in a form, and is of a
kind then. -/
inductive IsMarked : Form → List Char → Line → Prop where
  /-- A header is a name, blanks and a value behind `@`. -/
  | header {line name blanks value : List Char} (h : IsHeader line name blanks value) :
    IsMarked .header line (.header (String.ofList (lower name)) (String.ofList value))
  /-- The start of a section is a label between brackets. -/
  | sectionStart {inner : List Char} (h : IsInner '[' ']' inner) :
    IsMarked .sectionStart ('[' :: (inner ++ [']']))
      (.sectionStart (String.ofList (collapse inner)))
  /-- Behind a performance direction stands a lyric that does not start like another one. -/
  | performanceLyric {inner after : List Char} (h : IsInner '(' ')' inner)
    (hlyric : stripStart after ≠ []) (hother : (stripStart after).head? ≠ some '(') :
    IsMarked .performanceLyric ('(' :: (inner ++ ')' :: after))
      (.performanceLyric (String.ofList (collapse inner)) (String.ofList (stripStart after)))
  /-- A performance direction is a text between parentheses. -/
  | performance {inner : List Char} (h : IsInner '(' ')' inner) :
    IsMarked .performance ('(' :: (inner ++ [')'])) (.performance (String.ofList (collapse inner)))
  /-- A cue is a body between angle brackets. -/
  | cue {inner : List Char} (h : IsInner '<' '>' inner) :
    IsMarked .cue ('<' :: (inner ++ ['>'])) (.cue (strip inner))

/-- A line without blanks at its ends is of a kind. -/
inductive IsKind (line : List Char) : Line → Prop where
  /-- An empty line is blank. -/
  | blank (h : line = []) : IsKind line .blank
  /-- A marked line is of the kind that it is written as. -/
  | marked {form : Form} {kind : Line} (h : IsMarked form line kind) : IsKind line kind
  /-- Any other line is a lyric, which opens like the marker whose character it starts with. -/
  | lyric {malformed : Option Marker} (hne : line ≠ [])
    (h : ∀ form kind, ¬IsMarked form line kind)
    (hmalformed : ∀ marker, malformed = some marker ↔ line.head? = some marker.mark) :
    IsKind line (.lyric (String.ofList line) malformed)

/-- The test of a form, with the kind of a line that passes it. -/
def Form.test (form : Form) (line : List Char) : Option Line :=
  match form with
  | header => (header? line).map fun said => .header said.1 said.2
  | sectionStart => (sectionStart? line).map .sectionStart
  | performanceLyric => (performanceLyric? line).map fun said => .performanceLyric said.1 said.2
  | performance => (performance? line).map .performance
  | cue => (cue? line).map .cue

/-- The forms in the order in which they are tested. -/
def Form.all : List Form := [header, sectionStart, performanceLyric, performance, cue]

/-- The kind of a line without blanks at its ends, by the tests in some order. -/
def byTests (order : List Form) (line : List Char) : Line :=
  if line.isEmpty then blank
  else (order.findSome? fun form => form.test line).getD
    (lyric (String.ofList line) (opening? line))

variable {line : List Char} {kind : Line} {form : Form}

/-! ## Tests and forms -/

/-- The kinds are told apart by the tests in their order. -/
theorem ofStripped_eq_byTests (line : List Char) : ofStripped line = byTests Form.all line := by
  unfold ofStripped byTests Form.all
  cases hheader : header? line with
  | some said => simp [Form.test, hheader]
  | none =>
    cases hsection : sectionStart? line with
    | some label => simp [Form.test, hheader, hsection]
    | none =>
      cases hlyric : performanceLyric? line with
      | some said => simp [Form.test, hheader, hsection, hlyric]
      | none =>
        cases hperformance : performance? line with
        | some text => simp [Form.test, hheader, hsection, hlyric, hperformance]
        | none =>
          cases hcue : cue? line <;>
            simp [Form.test, hheader, hsection, hlyric, hperformance, hcue]

/-- A line that passes the test of a form is written in it. -/
theorem isMarked_of_test (h : form.test line = some kind) : IsMarked form line kind := by
  cases form with
  | header =>
    obtain ⟨⟨key, value⟩, hsaid, rfl⟩ := Option.map_eq_some_iff.1 h
    obtain ⟨name, blanks, text, hheader, -, rfl, rfl⟩ := exists_isHeader hsaid
    exact .header hheader
  | sectionStart =>
    obtain ⟨label, hlabel, rfl⟩ := Option.map_eq_some_iff.1 h
    obtain ⟨inner, henclosing, rfl⟩ := Option.map_eq_some_iff.1 hlabel
    obtain ⟨rfl, hinner⟩ := enclosing?_eq_some_iff.1 henclosing
    exact .sectionStart hinner
  | performanceLyric =>
    obtain ⟨⟨text, sung⟩, hsaid, rfl⟩ := Option.map_eq_some_iff.1 h
    obtain ⟨inner, after, rfl, hinner, hlyric, hother, -, rfl, rfl⟩ :=
      performanceLyric?_eq_some_iff.1 hsaid
    exact .performanceLyric hinner hlyric hother
  | performance =>
    obtain ⟨text, htext, rfl⟩ := Option.map_eq_some_iff.1 h
    obtain ⟨inner, henclosing, rfl⟩ := Option.map_eq_some_iff.1 htext
    obtain ⟨rfl, hinner⟩ := enclosing?_eq_some_iff.1 henclosing
    exact .performance hinner
  | cue =>
    obtain ⟨body, hbody, rfl⟩ := Option.map_eq_some_iff.1 h
    obtain ⟨inner, henclosing, rfl⟩ := Option.map_eq_some_iff.1 hbody
    obtain ⟨rfl, hinner⟩ := enclosing?_eq_some_iff.1 henclosing
    exact .cue hinner

/-- A line without line feeds passes the test of the form that it is written in. -/
theorem IsMarked.test_eq (h : IsMarked form line kind) (hfeed : '\n' ∉ line) :
    form.test line = some kind := by
  cases h with
  | @header _ name blanks value h =>
    have hvalue : '\n' ∉ value := fun hmem => hfeed (by rw [h.line]; simp [hmem])
    simp only [Form.test, h.header?_eq hvalue, Option.map_some]
  | sectionStart h =>
    simp only [Form.test, sectionStart?, enclosing?_eq_some_iff.2 ⟨rfl, h⟩, Option.map_some]
  | @performanceLyric inner after h hlyric hother =>
    have hafter : '\n' ∉ stripStart after := fun hmem =>
      hfeed (by simp [(List.dropWhile_sublist _).subset hmem])
    have hsaid := performanceLyric?_eq_some_iff.2
      ⟨inner, after, rfl, h, hlyric, hother, hafter, rfl, rfl⟩
    simp only [Form.test, hsaid, Option.map_some]
  | performance h =>
    simp only [Form.test, performance?, enclosing?_eq_some_iff.2 ⟨rfl, h⟩, Option.map_some]
  | cue h => simp only [Form.test, cue?, enclosing?_eq_some_iff.2 ⟨rfl, h⟩, Option.map_some]

/-! ## One form at most -/

/-- The marker of a form. -/
def Form.marker : Form → Marker
  | header => .header
  | sectionStart => .sectionStart
  | performanceLyric | performance => .performance
  | cue => .cue

/-- Different markers are different characters. -/
theorem mark_inj {marker other : Marker} (h : marker.mark = other.mark) : marker = other := by
  revert h
  cases marker <;> cases other <;> decide

/-- A line starts with the mark of the form that it is written in. -/
theorem IsMarked.head?_eq (h : IsMarked form line kind) :
    line.head? = some form.marker.mark := by
  cases h with
  | header h => rw [h.line]; rfl
  | sectionStart | performanceLyric | performance | cue => rfl

/-- No line is written as a performance direction both with a lyric and alone: the closing mark is
the only one, so that the same text stands behind it. -/
theorem IsMarked.not_performance {kind' : Line} (h : IsMarked .performanceLyric line kind) :
    ¬IsMarked .performance line kind' := by
  intro h'
  cases h with
  | @performanceLyric inner after h hlyric hother =>
    generalize hline : '(' :: (inner ++ ')' :: after) = line at h'
    cases h' with
    | @performance inner' h' =>
      have hsame := enclosed?_eq_some_iff.2 ⟨hline, h'⟩
      rw [enclosed?_of_isInner h] at hsame
      obtain ⟨rfl, rfl⟩ := Prod.mk.inj (Option.some.inj hsame)
      exact hlyric rfl

/-- No line is written in two forms. -/
theorem IsMarked.form_eq {other : Form} {kind' : Line} (h : IsMarked form line kind)
    (h' : IsMarked other line kind') : form = other := by
  have hmarker : form.marker = other.marker :=
    mark_inj (Option.some.inj (h.head?_eq.symm.trans h'.head?_eq))
  cases form <;> cases other
  case performanceLyric.performance => exact absurd h' h.not_performance
  case performance.performanceLyric => exact absurd h h'.not_performance
  all_goals first | rfl | cases hmarker

/-- No line passes the tests of two forms. -/
theorem test_eq_none_or {other : Form} (line : List Char) (hne : form ≠ other) :
    form.test line = none ∨ other.test line = none := by
  by_contra! hboth
  obtain ⟨kind, hkind⟩ := Option.ne_none_iff_exists'.1 hboth.1
  obtain ⟨kind', hkind'⟩ := Option.ne_none_iff_exists'.1 hboth.2
  exact hne ((isMarked_of_test hkind).form_eq (isMarked_of_test hkind'))

/-- Every form is tested. -/
theorem Form.mem_all (form : Form) : form ∈ Form.all := by
  cases form <;> decide

/-- Of any two of the tests a line passes one at most. -/
theorem Form.pairwise_all (line : List Char) :
    Form.all.Pairwise fun form other => form.test line = none ∨ other.test line = none :=
  List.Pairwise.imp (test_eq_none_or line) (by decide : Form.all.Nodup)

/-- The tests can be made in every order. -/
theorem byTests_perm {order : List Form} (horder : order.Perm Form.all) (line : List Char) :
    byTests order line = ofStripped line := by
  rw [ofStripped_eq_byTests, byTests, byTests, findSome?_perm (Form.pairwise_all line) horder]

/-! ## Kinds -/

/-- The marker that a line opens like is the one whose character it starts with. -/
theorem opening?_eq_some_iff {marker : Marker} :
    opening? line = some marker ↔ line.head? = some marker.mark := by
  cases line with
  | nil => exact iff_of_false nofun nofun
  | cons c rest =>
    rw [List.head?_cons, Option.some_inj]
    unfold opening?
    split
    case h_5 hheader hsection hperformance hcue =>
      refine iff_of_false nofun fun hmark => ?_
      subst hmark
      cases marker
      · exact hheader rest rfl
      · exact hsection rest rfl
      · exact hperformance rest rfl
      · exact hcue rest rfl
    all_goals
      next heq =>
        obtain ⟨rfl, -⟩ := List.cons.inj heq
        cases marker <;> decide

/-- A line without line feeds is of the kind that it is read as. -/
theorem isKind_ofStripped (hfeed : '\n' ∉ line) : IsKind line (ofStripped line) := by
  rw [ofStripped_eq_byTests, byTests]
  split
  · next hempty => exact .blank (List.isEmpty_iff.1 hempty)
  · next hempty =>
    cases hfound : Form.all.findSome? fun form => form.test line with
    | some kind =>
      obtain ⟨form, -, hform⟩ := List.exists_of_findSome?_eq_some hfound
      exact .marked (isMarked_of_test hform)
    | none =>
      refine .lyric (by simpa using hempty) (fun form kind h => ?_) fun _ => opening?_eq_some_iff
      have hnone := List.findSome?_eq_none_iff.1 hfound form form.mem_all
      rw [h.test_eq hfeed] at hnone
      cases hnone

/-- A line without line feeds is read as the kind that it is of. -/
theorem IsKind.ofStripped_eq (h : IsKind line kind) (hfeed : '\n' ∉ line) :
    ofStripped line = kind := by
  cases h with
  | blank hempty => exact ofStripped_eq_blank_iff.2 hempty
  | @marked form _ h =>
    have hne : line.isEmpty = false := by
      cases line with
      | nil => cases h.head?_eq
      | cons => rfl
    have hfound : (Form.all.findSome? fun form => form.test line) = some kind :=
      (findSome?_eq_some_iff_of_pairwise (Form.pairwise_all line)).2
        ⟨form, form.mem_all, h.test_eq hfeed⟩
    rw [ofStripped_eq_byTests, byTests, if_neg (by simp [hne]), hfound, Option.getD_some]
  | @lyric malformed hne h hmalformed =>
    have hnone : (Form.all.findSome? fun form => form.test line) = none := by
      refine List.findSome?_eq_none_iff.2 fun form _ => ?_
      refine Option.eq_none_iff_forall_ne_some.2 fun kind hkind => ?_
      exact h form kind (isMarked_of_test hkind)
    have hopening : opening? line = malformed :=
      Option.ext fun marker => opening?_eq_some_iff.trans (hmalformed marker).symm
    rw [ofStripped_eq_byTests, byTests, if_neg (by simpa using hne), hnone, Option.getD_none,
      hopening]

/-- A line is reported exactly if it is written in no form and starts with the mark of one. -/
theorem problem?_ofStripped_iff (hfeed : '\n' ∉ line) {problem : Problem} :
    problem? (ofStripped line) = some problem ↔ (∀ form kind, ¬IsMarked form line kind) ∧
      ∃ marker, line.head? = some marker.mark ∧
        problem = .malformedMarker marker (String.ofList line) := by
  constructor
  · intro h
    have hkind := isKind_ofStripped hfeed
    generalize ofStripped line = kind at h hkind
    -- Only a lyric has a problem, and only if it starts with a mark.
    cases hkind with
    | blank => cases h
    | marked hmarked => cases hmarked <;> cases h
    | @lyric malformed hne hnot hmalformed =>
      cases malformed with
      | none => cases h
      | some marker => exact ⟨hnot, marker, (hmalformed marker).1 rfl, (Option.some.inj h).symm⟩
  · rintro ⟨hnot, marker, hhead, rfl⟩
    have hne : line ≠ [] := by
      rintro rfl
      cases hhead
    have hkind : IsKind line (.lyric (String.ofList line) (some marker)) := by
      refine .lyric hne hnot fun other => ?_
      rw [hhead, Option.some_inj, Option.some_inj]
      exact ⟨congrArg Marker.mark, mark_inj⟩
    rw [hkind.ofStripped_eq hfeed]
    rfl

/-- The kinds of lines are exactly those of the grammar. A line on its own is of the kind that it is
read as and of no other one, and it is reported exactly if it starts with a mark and is written in no
form. No line passes two tests, and made in any order the tests find the same kind. -/
theorem ofText_grammar (hfeed : '\n' ∉ line) :
    (∀ kind, ofText line = kind ↔ IsKind (strip line) kind) ∧
    (∀ problem, problem? (ofText line) = some problem ↔
      (∀ form kind, ¬IsMarked form (strip line) kind) ∧
        ∃ marker, (strip line).head? = some marker.mark ∧
          problem = .malformedMarker marker (String.ofList (strip line))) ∧
    (∀ form other : Form, form ≠ other →
      form.test (strip line) = none ∨ other.test (strip line) = none) ∧
    ∀ order : List Form, order.Perm Form.all → byTests order (strip line) = ofText line := by
  have hstripped : '\n' ∉ strip line := fun hmem => hfeed (Text.mem_of_mem_strip hmem)
  refine ⟨fun kind => ⟨?_, fun h => h.ofStripped_eq hstripped⟩,
    fun problem => problem?_ofStripped_iff hstripped, fun form other => test_eq_none_or _,
    fun order horder => byTests_perm horder _⟩
  rintro rfl
  exact isKind_ofStripped hstripped

/-- A second pair of parentheses belongs to the lyric, also if the tests are made in the opposite
order. -/
theorem ofText_grammar_adjacent :
    '\n' ∉ " (soft)  la (loud) ".toList ∧
      IsKind (strip " (soft)  la (loud) ".toList) (.performanceLyric "soft" "la (loud)") ∧
      byTests Form.all.reverse (strip " (soft)  la (loud) ".toList) =
        ofText " (soft)  la (loud) ".toList := by
  have hfeed : '\n' ∉ " (soft)  la (loud) ".toList := by decide
  obtain ⟨hkind, -, -, horder⟩ := ofText_grammar hfeed
  exact ⟨hfeed, (hkind _).1 (by decide +kernel), horder _ (List.reverse_perm _)⟩

end Line

end CueSheet
