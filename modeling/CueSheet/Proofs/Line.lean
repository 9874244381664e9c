import CueSheet.Line
import CueSheet.Proofs.Text.Pieces

/-!
# What lines hold, and which lines hold it

Each kind of marked line has a form that its texts stand in: a header its key and its value, a
section and a performance direction a text between two marks, a cue its body. A line that is read as
marked has this form, and its texts are of the kind that the form asks for
(`Line.isWellFormed_ofText`). A line that is written in the form is read as what it was written from
(`Line.ofText_header` and the lemmas behind it), whatever the line says.
-/

namespace CueSheet

open Text (isBlank isWord strip stripStart collapse lower IsStripped)

/-- A text can be the value of a header. -/
structure IsHeaderValue (value : List Char) : Prop where
  /-- It is not empty. -/
  ne_nil : value ≠ []
  /-- It has no blanks at its ends. -/
  stripped : IsStripped value
  /-- It stands on one line. -/
  feed : '\n' ∉ value

/-- A text can stand between two marks. -/
structure IsInner (opening closing : Char) (text : List Char) : Prop where
  /-- It has neither mark. -/
  marks : ∀ c ∈ text, c ≠ opening ∧ c ≠ closing
  /-- It is not blank. -/
  not_blank : ∃ c ∈ text, isBlank c = false

/-- A text can be what a marked line says: it stands between the marks with single spaces. -/
structure IsEnclosed (opening closing : Char) (text : List Char) : Prop
    extends IsInner opening closing text where
  /-- Its blanks are single spaces between its words. -/
  collapsed : collapse text = text

namespace Line

variable {opening closing : Char} {line inner after value : List Char}

/-! ## Marks -/

/-- A text between two marks is cut out of a line that starts with them. -/
theorem enclosed?_of_isInner (h : IsInner opening closing inner) :
    enclosed? opening closing (opening :: (inner ++ closing :: after)) = some (inner, after) := by
  have hkeep : ∀ d ∈ inner, (d != opening && d != closing) = true := fun d hd => by
    simpa using h.marks d hd
  have htake : (inner ++ closing :: after).takeWhile (fun d => d != opening && d != closing) =
      inner := by
    rw [List.takeWhile_append_of_pos hkeep]
    simp
  have hdrop : (inner ++ closing :: after).dropWhile (fun d => d != opening && d != closing) =
      closing :: after := by
    rw [List.dropWhile_append_of_pos hkeep]
    simp
  unfold enclosed?
  dsimp only
  rw [htake, hdrop]
  dsimp only
  rw [if_pos ⟨rfl, rfl, by simpa using h.not_blank⟩]

/-- What stands between two marks and behind them. -/
theorem enclosed?_eq_some_iff :
    enclosed? opening closing line = some (inner, after) ↔
      line = opening :: (inner ++ closing :: after) ∧ IsInner opening closing inner := by
  constructor
  · intro h
    cases line with
    | nil => cases h
    | cons c rest =>
      -- The text in between goes up to the first mark, which must be the closing one.
      have hsplit := List.takeWhile_append_dropWhile
        (p := fun d => d != opening && d != closing) (l := rest)
      unfold enclosed? at h
      dsimp only at h
      split at h
      · cases h
      · next d behind hdrop =>
        split_ifs at h with hmarks
        obtain ⟨rfl, rfl, hany⟩ := hmarks
        obtain ⟨rfl, rfl⟩ := Prod.mk.inj (Option.some.inj h)
        refine ⟨by rw [← hdrop, hsplit], fun d hd => ?_, by simpa using hany⟩
        simpa using List.mem_takeWhile_imp hd
  · rintro ⟨rfl, hinner⟩
    exact enclosed?_of_isInner hinner

/-- A line that starts with another character stands between no two marks. -/
theorem enclosed?_of_ne {c : Char} (rest : List Char) (h : c ≠ opening) :
    enclosed? opening closing (c :: rest) = none := by
  rw [← Option.not_isSome_iff_eq_none, Option.isSome_iff_exists]
  rintro ⟨⟨inner, after⟩, hsome⟩
  exact h (List.cons.inj (enclosed?_eq_some_iff.1 hsome).1).1

/-- What makes up a whole line between two marks. -/
theorem enclosing?_eq_some_iff :
    enclosing? opening closing line = some inner ↔
      line = opening :: (inner ++ [closing]) ∧ IsInner opening closing inner := by
  rw [← enclosed?_eq_some_iff]
  unfold enclosing?
  split
  · next text hsome => rw [hsome]; simp
  · next hnot =>
    refine iff_of_false nofun fun hsome => ?_
    exact hnot _ hsome

/-- A text that is collapsed from between two marks can stand between them. -/
theorem isEnclosed_collapse (hspace : ' ' ≠ opening ∧ ' ' ≠ closing)
    (h : IsInner opening closing inner) : IsEnclosed opening closing (collapse inner) := by
  refine ⟨⟨fun c hc => ?_, ?_⟩, Text.collapse_collapse inner⟩
  · rcases Text.mem_collapse hc with ⟨hc, -⟩ | rfl
    · exact h.marks c hc
    · exact hspace
  · obtain ⟨c, hc, hblank⟩ := h.not_blank
    exact ⟨c, Text.mem_collapse_of_mem hc hblank, hblank⟩

/-- A text between two marks has no blanks at its ends. -/
theorem isStripped_between (inner : List Char) (hopening : isBlank opening = false)
    (hclosing : isBlank closing = false) : IsStripped (opening :: (inner ++ [closing])) := by
  refine ⟨fun c hc => ?_, fun c hc => ?_⟩
  · rwa [← Option.some.inj hc]
  · rw [← List.cons_append, List.getLast?_append, List.getLast?_singleton] at hc
    rwa [← Option.some.inj hc]

/-- A text with single spaces between its words stands on one line. -/
theorem feed_of_isEnclosed (h : IsEnclosed opening closing inner) : '\n' ∉ inner := by
  intro hfeed
  rw [← h.collapsed] at hfeed
  rcases Text.mem_collapse hfeed with ⟨-, hblank⟩ | hspace
  · exact absurd hblank (by decide)
  · exact absurd hspace (by decide)

/-! ## Headers -/

/-- A line without the mark of headers is none. -/
theorem header?_of_ne {c : Char} (rest : List Char) (h : c ≠ '@') : header? (c :: rest) = none := by
  unfold header?
  split
  · next heq => exact absurd (List.cons.inj heq).1 h
  · rfl

/-- A line is a header: behind the mark stand a name, blanks and a value. -/
structure IsHeader (line name blanks value : List Char) : Prop where
  /-- They make up the whole line. -/
  line : line = '@' :: (name ++ (blanks ++ value))
  /-- The name is a letter, and word characters and hyphens behind it. -/
  name : ∃ first rest, name = first :: rest ∧ isLetter first = true ∧
    ∀ c ∈ rest, isWord c = true ∨ c = '-'
  /-- There is a blank. -/
  blanks_ne_nil : blanks ≠ []
  /-- There are only blanks between the name and the value. -/
  blanks : ∀ c ∈ blanks, isBlank c = true
  /-- The value is not empty. -/
  value_ne_nil : value ≠ []
  /-- The value does not start with a blank. -/
  value_head : ∀ c ∈ value.head?, isBlank c = false

/-- A line that is read as a header is one, whose value stands on one line. -/
theorem exists_isHeader {key said : String} (h : header? line = some (key, said)) :
    ∃ name blanks value, IsHeader line name blanks value ∧
      '\n' ∉ value ∧ key = String.ofList (lower name) ∧ said = String.ofList value := by
  unfold header? at h
  split at h
  · next first rest =>
    dsimp only at h
    split_ifs at h with htests
    simp only [Bool.and_eq_true, Bool.not_eq_true', List.isEmpty_eq_false_iff,
      List.contains_eq_mem, decide_eq_false_iff_not] at htests
    obtain ⟨⟨⟨hfirst, hblank⟩, hne⟩, hfeed⟩ := htests
    obtain ⟨rfl, rfl⟩ := Prod.mk.inj (Option.some.inj h)
    -- What the reader passes over between the name and the value are the blanks.
    refine ⟨_, (rest.dropWhile isKeyChar).takeWhile isBlank, _, ⟨?_, ?_, ?_, ?_, hne, ?_⟩, hfeed,
      rfl, rfl⟩
    · rw [List.takeWhile_append_dropWhile, List.cons_append, List.takeWhile_append_dropWhile]
    · refine ⟨first, _, rfl, hfirst, fun c hc => ?_⟩
      simpa [isKeyChar] using List.mem_takeWhile_imp hc
    · intro hnil
      cases hafter : rest.dropWhile isKeyChar with
      | nil => simp [hafter] at hblank
      | cons c after =>
        rw [hafter, List.takeWhile_cons_of_pos (by simpa [hafter] using hblank)] at hnil
        cases hnil
    · exact fun c hc => List.mem_takeWhile_imp hc
    · exact Text.head?_dropWhile_isBlank
  · cases h

/-- No blank can stand in the name of a header. -/
theorem isKeyChar_of_isBlank {c : Char} (h : isBlank c = true) : isKeyChar c = false := by
  have hhyphen : c ≠ '-' := by
    rintro rfl
    exact absurd h (by decide)
  simp [isKeyChar, Text.not_isWord_of_isBlank h, hhyphen]

/-- A header whose value stands on one line is read as one. The first blank ends the name, and the
first other character behind it starts the value. -/
theorem IsHeader.header?_eq {name blanks : List Char} (h : IsHeader line name blanks value)
    (hfeed : '\n' ∉ value) :
    header? line = some (String.ofList (lower name), String.ofList value) := by
  obtain ⟨rfl, ⟨first, rest, rfl, hfirst, hrest⟩, hsome, hblanks, hne, hhead⟩ := h
  have hkey : ∀ c ∈ rest, isKeyChar c = true := fun c hc => by
    simpa [isKeyChar] using hrest c hc
  obtain ⟨blank, more, rfl⟩ := List.exists_cons_of_ne_nil hsome
  have hblank := hblanks blank List.mem_cons_self
  have hstop := isKeyChar_of_isBlank hblank
  have htake : (rest ++ (blank :: more ++ value)).takeWhile isKeyChar = rest := by
    rw [List.takeWhile_append_of_pos hkey, List.cons_append,
      List.takeWhile_cons_of_neg (by simp [hstop]), List.append_nil]
  have hdrop : (rest ++ (blank :: more ++ value)).dropWhile isKeyChar = blank :: more ++ value := by
    rw [List.dropWhile_append_of_pos hkey, List.cons_append,
      List.dropWhile_cons_of_neg (by simp [hstop])]
  have hvalue : (blank :: more ++ value).dropWhile isBlank = value := by
    rw [List.dropWhile_append_of_pos hblanks, Text.dropWhile_isBlank_eq hhead]
  rw [List.cons_append]
  simp only [header?, htake, hdrop, hvalue, hfirst]
  simp [hblank, hne, hfeed]

/-- The value of a header is one. -/
theorem of_header? {key value : String} (hline : IsStripped line)
    (h : header? line = some (key, value)) : IsHeaderValue value.toList := by
  obtain ⟨name, blanks, text, hheader, hfeed, -, rfl⟩ := exists_isHeader h
  rw [String.toList_ofList]
  refine ⟨hheader.value_ne_nil, ⟨hheader.value_head, fun c hc => hline.last c ?_⟩, hfeed⟩
  -- The value reaches to the end of the line.
  have hsplit : line = ('@' :: name ++ blanks) ++ text := by simp [hheader.line]
  rwa [hsplit, List.getLast?_append_of_ne_nil _ hheader.value_ne_nil]

/-- A name, a space and a value behind the mark of headers are read as a header. -/
theorem ofText_header {first : Char} {name : List Char} (hfirst : isLetter first = true)
    (hname : ∀ c ∈ name, isKeyChar c = true) (hvalue : IsHeaderValue value) :
    ofText ('@' :: first :: (name ++ ' ' :: value)) =
      .header (String.ofList (lower (first :: name))) (String.ofList value) := by
  have hstripped : IsStripped ('@' :: first :: (name ++ ' ' :: value)) := by
    refine ⟨fun c hc => ?_, fun c hc => hvalue.stripped.last c ?_⟩
    · rw [← Option.some.inj hc]
      decide
    · have hsplit : '@' :: first :: (name ++ ' ' :: value) =
          ('@' :: first :: name ++ [' ']) ++ value := by
        simp
      rwa [hsplit, List.getLast?_append_of_ne_nil _ hvalue.ne_nil] at hc
  have hheader : IsHeader ('@' :: first :: (name ++ ' ' :: value)) (first :: name) [' '] value := by
    refine ⟨by simp, ⟨first, name, rfl, hfirst, fun c hc => ?_⟩, by simp,
      List.forall_mem_singleton.2 (by decide), hvalue.ne_nil, hvalue.stripped.head⟩
    simpa [isKeyChar] using hname c hc
  rw [ofText, hstripped.strip_eq, ofStripped, hheader.header?_eq hvalue.feed]
  rfl

/-! ## Lines between marks -/

/-- A line is read as a performance direction with a lyric if something stands behind the closing
mark that does not start like another direction. -/
theorem performanceLyric?_eq_some_iff {text sung : String} :
    performanceLyric? line = some (text, sung) ↔ ∃ inner after,
      line = '(' :: (inner ++ ')' :: after) ∧ IsInner '(' ')' inner ∧ stripStart after ≠ [] ∧
        (stripStart after).head? ≠ some '(' ∧ '\n' ∉ stripStart after ∧
        text = String.ofList (collapse inner) ∧ sung = String.ofList (stripStart after) := by
  constructor
  · intro h
    unfold performanceLyric? at h
    split at h
    · cases h
    · next inner after henclosed =>
      dsimp only at h
      split_ifs at h with hrefused
      obtain ⟨rfl, rfl⟩ := Prod.mk.inj (Option.some.inj h)
      obtain ⟨hline, hinner⟩ := enclosed?_eq_some_iff.1 henclosed
      simp only [Bool.or_eq_true, not_or, List.isEmpty_iff, beq_iff_eq, List.contains_eq_mem,
        decide_eq_true_eq] at hrefused
      exact ⟨inner, after, hline, hinner, hrefused.1.1, hrefused.1.2, hrefused.2, rfl, rfl⟩
  · rintro ⟨inner, after, rfl, hinner, hne, hhead, hfeed, rfl, rfl⟩
    rw [performanceLyric?, enclosed?_eq_some_iff.2 ⟨rfl, hinner⟩]
    unfold stripStart at hne hhead hfeed ⊢
    simp [hne, hhead, hfeed]

/-- A text between the marks of sections is read as the start of a section. -/
theorem ofText_sectionStart (h : IsEnclosed '[' ']' inner) :
    ofText ('[' :: (inner ++ [']'])) = .sectionStart (String.ofList inner) := by
  have hsection : sectionStart? ('[' :: (inner ++ [']'])) = some (String.ofList inner) := by
    rw [sectionStart?, enclosing?_eq_some_iff.2 ⟨rfl, h.toIsInner⟩, Option.map_some, h.collapsed]
  rw [ofText, (isStripped_between inner (by decide) (by decide)).strip_eq, ofStripped,
    header?_of_ne _ (by decide), hsection]
  rfl

/-- A text between the marks of performance directions is read as one. -/
theorem ofText_performance (h : IsEnclosed '(' ')' inner) :
    ofText ('(' :: (inner ++ [')'])) = .performance (String.ofList inner) := by
  have hsection : sectionStart? ('(' :: (inner ++ [')'])) = none := by
    rw [sectionStart?, enclosing?, enclosed?_of_ne _ (by decide)]
    rfl
  -- Nothing is sung behind the closing mark.
  have hlyric : performanceLyric? ('(' :: (inner ++ [')'])) = none := by
    rw [performanceLyric?, enclosed?_eq_some_iff.2 ⟨rfl, h.toIsInner⟩]
    rfl
  have hperformance : performance? ('(' :: (inner ++ [')'])) = some (String.ofList inner) := by
    rw [performance?, enclosing?_eq_some_iff.2 ⟨rfl, h.toIsInner⟩, Option.map_some, h.collapsed]
  rw [ofText, (isStripped_between inner (by decide) (by decide)).strip_eq, ofStripped,
    header?_of_ne _ (by decide), hsection, hlyric, hperformance]
  rfl

/-- A text between the marks of cues is read as the body of a cue. -/
theorem ofText_cue (h : IsInner '<' '>' inner) (hstripped : IsStripped inner) :
    ofText ('<' :: (inner ++ ['>'])) = .cue inner := by
  have hsection : sectionStart? ('<' :: (inner ++ ['>'])) = none := by
    rw [sectionStart?, enclosing?, enclosed?_of_ne _ (by decide)]
    rfl
  have hlyric : performanceLyric? ('<' :: (inner ++ ['>'])) = none := by
    rw [performanceLyric?, enclosed?_of_ne _ (by decide)]
  have hperformance : performance? ('<' :: (inner ++ ['>'])) = none := by
    rw [performance?, enclosing?, enclosed?_of_ne _ (by decide)]
    rfl
  have hcue : cue? ('<' :: (inner ++ ['>'])) = some inner := by
    rw [cue?, enclosing?_eq_some_iff.2 ⟨rfl, h⟩, Option.map_some, hstripped.strip_eq]
  rw [ofText, (isStripped_between inner (by decide) (by decide)).strip_eq, ofStripped,
    header?_of_ne _ (by decide), hsection, hlyric, hperformance, hcue]
  rfl

/-! ## What lines hold -/

/-- Only a stripped line without characters is blank. -/
theorem ofStripped_eq_blank_iff : ofStripped line = .blank ↔ line = [] := by
  constructor
  · intro h
    unfold ofStripped at h
    split at h
    · next hempty => exact List.isEmpty_iff.1 hempty
    · -- Every other kind has a constructor of its own.
      repeat' split at h
      all_goals cases h
  · rintro rfl
    rfl

/-- A line that starts with a byte order mark is a lyric. -/
theorem ofText_mark (rest : List Char) : ∃ text, ofText ('\ufeff' :: rest) = .lyric text none := by
  have hlyric : performanceLyric? ('\ufeff' :: Text.stripEnd rest) = none := by
    rw [performanceLyric?, enclosed?_of_ne _ (by decide)]
  have hother (opening closing : Char) (h : '\ufeff' ≠ opening) :
      enclosing? opening closing ('\ufeff' :: Text.stripEnd rest) = none := by
    rw [enclosing?, enclosed?_of_ne _ h]
  rw [ofText, Text.strip_cons_of_not_isBlank rest (by decide), ofStripped,
    header?_of_ne _ (by decide), sectionStart?, hother _ _ (by decide), hlyric, performance?,
    hother _ _ (by decide), cue?, hother _ _ (by decide)]
  exact ⟨_, rfl⟩

/-- The texts of a line are of the kind that its form asks for. -/
def IsWellFormed : Line → Prop
  | .blank => True
  | .header _ value => IsHeaderValue value.toList
  | .sectionStart label => IsEnclosed '[' ']' label.toList
  | .performanceLyric text sung => IsEnclosed '(' ')' text.toList ∧ '\n' ∉ sung.toList
  | .performance text => IsEnclosed '(' ')' text.toList
  | .cue body => ∀ c ∈ body, c ≠ '<' ∧ c ≠ '>' ∧ c ≠ '\n'
  | .lyric text _ => '\n' ∉ text.toList

/-- What a line without line feeds is read as is well-formed. -/
theorem isWellFormed_ofText (h : '\n' ∉ line) : (ofText line).IsWellFormed := by
  -- The kinds are tried in turn on the stripped line, and each of them says what the line looks like.
  have hstripped := Text.isStripped_strip line
  have hfeed : '\n' ∉ strip line := fun hmem => h (Text.mem_of_mem_strip hmem)
  rw [ofText]
  generalize strip line = line at hstripped hfeed
  have henclosing {opening closing : Char} {text : String}
      (hspace : ' ' ≠ opening ∧ ' ' ≠ closing)
      (hsome : (enclosing? opening closing line).map (fun inner => String.ofList (collapse inner)) =
        some text) : IsEnclosed opening closing text.toList := by
    obtain ⟨inner, hinner, rfl⟩ := Option.map_eq_some_iff.1 hsome
    rw [String.toList_ofList]
    exact isEnclosed_collapse hspace (enclosing?_eq_some_iff.1 hinner).2
  unfold ofStripped
  split
  · trivial
  split
  · next key value hheader => exact of_header? hstripped hheader
  split
  · next label hlabel => exact henclosing (by decide) hlabel
  split
  · next text sung hlyric =>
    obtain ⟨inner, after, -, hinner, -, -, hfeed, rfl, rfl⟩ :=
      performanceLyric?_eq_some_iff.1 hlyric
    rw [IsWellFormed, String.toList_ofList, String.toList_ofList]
    exact ⟨isEnclosed_collapse (by decide) hinner, hfeed⟩
  split
  · next text htext => exact henclosing (by decide) htext
  split
  · next body hbody =>
    obtain ⟨inner, hinner, rfl⟩ := Option.map_eq_some_iff.1 hbody
    obtain ⟨hline, hmarks⟩ := enclosing?_eq_some_iff.1 hinner
    intro c hc
    have hmem := Text.mem_of_mem_strip hc
    refine ⟨(hmarks.marks c hmem).1, (hmarks.marks c hmem).2, ?_⟩
    rintro rfl
    exact hfeed (by rw [hline]; simp [hmem])
  · rwa [IsWellFormed, String.toList_ofList]

end Line

end CueSheet
