import CueSheet.Proofs.Text.Pieces
import CueSheet.Text.Lines

/-!
# Lines and the texts that they make up

A line of a text stands between two of its line feeds, and its number is told by the line feeds in
front of it (`getElem?_lines_iff`). The start of the text takes the place of the first line feed,
and its end that of the last one, unless nothing stands behind the last one. So cutting a text into
lines and joining lines by their ends undo each other (`lines_joined`).
-/

namespace CueSheet.Text

variable {text before line after : List Char} {ls : List (List Char)}

/-! ## Ends of lines -/

/-- The start of a line is kept. -/
theorem isPrefix_dropReturn (line : List Char) : dropReturn line <+: line := by
  unfold dropReturn
  split_ifs
  · exact List.dropLast_prefix _
  · exact List.prefix_rfl

/-- A line without carriage returns is kept as it is. -/
theorem dropReturn_of_not_mem (h : '\r' ∉ line) : dropReturn line = line :=
  if_neg fun hlast => h (List.mem_of_getLast? hlast)

/-- A carriage return at the end of a line is stripped off in any case. -/
theorem strip_dropReturn (line : List Char) : strip (dropReturn line) = strip line := by
  unfold dropReturn
  split_ifs with h
  · conv_rhs => rw [← List.dropLast_append_getLast? _ h]
    rw [strip_concat _ (by decide)]
  · rfl

/-- The lines at the start are kept. -/
theorem isPrefix_dropEmptyLast (ls : List (List Char)) : dropEmptyLast ls <+: ls := by
  unfold dropEmptyLast
  split_ifs
  · exact List.dropLast_prefix _
  · exact List.prefix_rfl

/-- Only the last one of some lines may be dropped. -/
theorem dropEmptyLast_append {ms : List (List Char)} (ls : List (List Char)) (h : ms ≠ []) :
    dropEmptyLast (ls ++ ms) = ls ++ dropEmptyLast ms := by
  unfold dropEmptyLast
  rw [List.getLast?_append_of_ne_nil _ h, List.dropLast_append_of_ne_nil h]
  split_ifs <;> rfl

/-- The lines of a text are its pieces without an empty last one, and without the carriage returns
at their ends. -/
theorem lines_eq (text : List Char) :
    lines text = (dropEmptyLast (pieces (· == '\n') text)).map dropReturn := by
  cases text with
  | nil => rfl
  | cons => rfl

/-- No piece is lost of a text in front of a line feed at the end. -/
theorem dropEmptyLast_pieces_concat (text : List Char) :
    dropEmptyLast (pieces (· == '\n') (text ++ ['\n'])) = pieces (· == '\n') text := by
  rw [pieces_append_cons text [] (by rfl), dropEmptyLast_append _ (pieces_ne_nil _ _)]
  exact List.append_nil _

/-- The lines of a text have no line feeds in them. -/
theorem not_mem_of_mem_lines (h : line ∈ lines text) : '\n' ∉ line := by
  rw [lines_eq] at h
  obtain ⟨piece, hpiece, rfl⟩ := List.mem_map.1 h
  intro hfeed
  have := mem_of_mem_pieces ((isPrefix_dropEmptyLast _).subset hpiece)
    ((isPrefix_dropReturn _).subset hfeed)
  simp at this

/-- Behind a line feed the lines of a text are those of what stands there. -/
theorem lines_append {front : List Char} (h : ∀ c ∈ front.getLast?, c = '\n') (text : List Char) :
    lines (front ++ text) = lines front ++ lines text := by
  rcases List.eq_nil_or_concat' front with rfl | ⟨front, c, rfl⟩
  · rfl
  obtain rfl : c = '\n' := h c (by simp)
  have hsplit : front ++ ['\n'] ++ text = front ++ '\n' :: text := by simp
  rw [hsplit, lines_eq, pieces_append_cons front text (by rfl),
    dropEmptyLast_append _ (pieces_ne_nil _ _), List.map_append, lines_eq,
    dropEmptyLast_pieces_concat, lines_eq]

/-- The first line of a text starts with the first character of the text, unless this belongs to a
line end. -/
theorem exists_lines_cons {c : Char} (hfeed : c ≠ '\n') (hreturn : c ≠ '\r') (text : List Char) :
    ∃ line others, lines (c :: text) = (c :: line) :: others := by
  obtain ⟨first, others, hpieces⟩ := List.exists_cons_of_ne_nil (pieces_ne_nil (· == '\n') text)
  have hcons : pieces (· == '\n') (c :: text) = (c :: first) :: others := by
    rw [pieces_cons, hpieces, consPiece, if_neg (by simpa using hfeed)]
    rfl
  -- The first piece is not dropped, because it has a character.
  have hlast : ∃ kept, dropEmptyLast ((c :: first) :: others) = (c :: first) :: kept := by
    unfold dropEmptyLast
    split_ifs with h
    · cases others with
      | nil => simp at h
      | cons second others => exact ⟨_, rfl⟩
    · exact ⟨_, rfl⟩
  -- A return is dropped at the end of a line, which is not this character.
  have hkept : ∃ line, dropReturn (c :: first) = c :: line := by
    unfold dropReturn
    split_ifs with h
    · cases first with
      | nil => exact absurd (by simpa using h) hreturn
      | cons d first => exact ⟨_, rfl⟩
    · exact ⟨_, rfl⟩
  obtain ⟨kept, hkeep⟩ := hlast
  obtain ⟨line, hline⟩ := hkept
  refine ⟨line, kept.map dropReturn, ?_⟩
  rw [lines_eq, hcons, hkeep, List.map_cons, hline]

/-- The first line is the start of the text. -/
theorem isPrefix_of_lines_eq {others : List (List Char)} (h : lines text = line :: others) :
    line <+: text := by
  obtain ⟨first, rest, hpieces⟩ := List.exists_cons_of_ne_nil (pieces_ne_nil (· == '\n') text)
  rw [lines_eq, hpieces] at h
  obtain ⟨whole, kept, hlast, rfl, -⟩ := List.map_eq_cons_iff.1 h
  have hwhole := hlast ▸ isPrefix_dropEmptyLast (first :: rest)
  rw [List.cons_prefix_cons] at hwhole
  exact (isPrefix_dropReturn whole).trans (hwhole.1 ▸ isPrefix_of_pieces_eq hpieces)

/-! ## How many lines there are -/

/-- A character more at the start of the first of some lines leaves no fewer of them. -/
theorem length_dropEmptyLast_le (c : Char) (ls : List (List Char)) :
    (dropEmptyLast ls).length ≤ (dropEmptyLast (ls.modifyHead (c :: ·))).length := by
  match ls with
  | [] => exact le_rfl
  | [only] =>
    have hlength : (dropEmptyLast [c :: only]).length = 1 := rfl
    rw [List.modifyHead_cons, hlength, dropEmptyLast]
    split_ifs <;> simp
  | first :: second :: others =>
    rw [List.modifyHead_cons, dropEmptyLast, dropEmptyLast, List.getLast?_cons_cons,
      List.getLast?_cons_cons]
    split_ifs <;> simp

/-- A character at the start of a text leaves no fewer lines, unless it is a line feed. -/
theorem length_lines_le_cons {c : Char} (h : c ≠ '\n') (text : List Char) :
    (lines text).length ≤ (lines (c :: text)).length := by
  have hpieces : pieces (· == '\n') (c :: text) =
      (pieces (· == '\n') text).modifyHead (c :: ·) := by
    rw [pieces_cons, consPiece, if_neg (by simpa using h)]
  rw [lines_eq, lines_eq, hpieces, List.length_map, List.length_map]
  exact length_dropEmptyLast_le c _

/-! ## Byte order marks -/

/-- A text without a byte order mark at its start is left as it is. -/
theorem dropMarks_eq_self (h : text.head? ≠ some '\ufeff') : dropMarks text = text := by
  cases text with
  | nil => rfl
  | cons c text => exact List.dropWhile_cons_of_neg (by simpa using h)

/-- The byte order marks at the start of a text end in front of any other character. -/
theorem dropMarks_append_cons {c : Char} (h : c ≠ '\ufeff') (front rest : List Char) :
    dropMarks (front ++ c :: rest) = dropMarks front ++ c :: rest := by
  induction front with
  | nil => exact List.dropWhile_cons_of_neg (by simpa using h)
  | cons d front ih =>
    by_cases hmark : d = '\ufeff'
    · have hdrop (text : List Char) : dropMarks (d :: text) = dropMarks text :=
        List.dropWhile_cons_of_pos (by simpa using hmark)
      rw [List.cons_append, hdrop, hdrop, ih]
    · have hkeep (text : List Char) : dropMarks (d :: text) = d :: text :=
        List.dropWhile_cons_of_neg (by simpa using hmark)
      rw [List.cons_append, hkeep, hkeep, List.cons_append]

/-- A text has no fewer lines than it has without the byte order marks at its start. -/
theorem length_lines_dropMarks_le (text : List Char) :
    (lines (dropMarks text)).length ≤ (lines text).length := by
  induction text with
  | nil => exact le_rfl
  | cons c text ih =>
    by_cases hmark : c = '\ufeff'
    · have hdrop : dropMarks (c :: text) = dropMarks text :=
        List.dropWhile_cons_of_pos (by simpa using hmark)
      have hfeed : c ≠ '\n' := by
        rw [hmark]
        decide
      rw [hdrop]
      exact ih.trans (length_lines_le_cons hfeed text)
    · have hkeep : dropMarks (c :: text) = c :: text :=
        List.dropWhile_cons_of_neg (by simpa using hmark)
      rw [hkeep]

/-! ## Lines in their places -/

/-- A text is cut at line feeds into a line and what stands before and after it. -/
structure IsCut (text before line after : List Char) : Prop where
  /-- The parts make up the text. -/
  text_eq : before ++ line ++ after = text
  /-- What stands before the line ends with a line feed. -/
  before_feed : ∀ c ∈ before.getLast?, c = '\n'
  /-- There is no line feed in the line. -/
  line_bare : '\n' ∉ line
  /-- What stands after the line starts with a line feed. -/
  after_feed : ∀ c ∈ after.head?, c = '\n'

/-- A line stands in a text behind so many line feeds. The empty end of a text is no line. -/
def IsLineAt (text : List Char) (k : ℕ) (line : List Char) : Prop :=
  ∃ before after, IsCut text before line after ∧ before.count '\n' = k ∧ line ++ after ≠ []

/-- Texts that each have an end with a line feed behind them end with a line feed together. -/
theorem getLast?_flatMap {lineEnd : List Char} (hend : lineEnd.getLast? = some '\n')
    (ls : List (List Char)) : ∀ c ∈ (ls.flatMap (· ++ lineEnd)).getLast?, c = '\n' := by
  intro c hc
  rcases List.eq_nil_or_concat' ls with rfl | ⟨front, last, rfl⟩
  · cases hc
  · have hne : lineEnd ≠ [] := by
      rintro rfl
      cases hend
    rw [List.flatMap_append, List.flatMap_singleton, ← List.append_assoc,
      List.getLast?_append_of_ne_nil _ hne, hend] at hc
    exact (Option.some.inj hc).symm

/-- Texts without line feeds that each have one behind them have as many as they are. -/
theorem count_flatMap_feed (h : ∀ line ∈ ls, '\n' ∉ line) :
    (ls.flatMap (· ++ ['\n'])).count '\n' = ls.length := by
  induction ls with
  | nil => rfl
  | cons first ls ih =>
    obtain ⟨hfirst, hrest⟩ := List.forall_mem_cons.1 h
    rw [List.flatMap_cons, List.count_append, List.count_append, List.count_eq_zero.2 hfirst,
      ih hrest, List.length_cons, List.count_singleton_self]
    omega

/-- Each piece between line feeds is cut out behind as many of them as its place says. -/
theorem exists_isCut {k : ℕ} (h : (pieces (· == '\n') text)[k]? = some line) :
    ∃ before after, IsCut text before line after ∧ before.count '\n' = k := by
  generalize hpieces : pieces (· == '\n') text = ps at h
  obtain ⟨hk, rfl⟩ := List.getElem?_eq_some_iff.1 h
  have hbare : ∀ piece ∈ ps, '\n' ∉ piece := by
    subst hpieces
    intro piece hpiece hfeed
    simpa using (mem_of_mem_pieces hpiece hfeed).2
  have hsplit : ps.take k ++ ps[k] :: ps.drop (k + 1) = ps := by
    rw [List.getElem_cons_drop, List.take_append_drop]
  -- The pieces in front make up what stands before the line, and those behind what stands after.
  refine ⟨(ps.take k).flatMap (· ++ ['\n']), (ps.drop (k + 1)).flatMap (['\n'] ++ ·),
    ⟨?_, getLast?_flatMap rfl _, hbare _ (List.getElem_mem hk), ?_⟩, ?_⟩
  · rw [← intercalate_append_cons, hsplit, ← hpieces, intercalate_pieces]
  · intro c hc
    cases hdrop : ps.drop (k + 1) with
    | nil =>
      rw [hdrop] at hc
      cases hc
    | cons next others =>
      rw [hdrop] at hc
      exact (Option.some.inj hc).symm
  · rw [count_flatMap_feed fun piece hpiece => hbare piece (List.mem_of_mem_take hpiece),
      List.length_take, min_eq_left hk.le]

namespace IsCut

/-- A line is the first piece of the text that starts with it. -/
theorem exists_pieces (h : IsCut text before line after) :
    ∃ others, pieces (· == '\n') (line ++ after) = line :: others := by
  have hbare := bare_of_not_mem h.line_bare
  cases after with
  | nil => exact ⟨[], by rw [List.append_nil, pieces_bare hbare]⟩
  | cons c after =>
    obtain rfl : c = '\n' := h.after_feed c rfl
    exact ⟨_, pieces_append after hbare (by rfl)⟩

/-- A line that is cut out of a text is a piece of it, with as many pieces in front of it as there
are line feeds. -/
theorem getElem?_pieces (h : IsCut text before line after) :
    (pieces (· == '\n') text)[before.count '\n']? = some line := by
  obtain ⟨others, hrest⟩ := h.exists_pieces
  rw [← h.text_eq]
  rcases List.eq_nil_or_concat' before with rfl | ⟨front, c, rfl⟩
  · rw [List.nil_append, hrest]
    rfl
  · obtain rfl : c = '\n' := h.before_feed c (by simp)
    have hcount : (front ++ ['\n']).count '\n' = (pieces (· == '\n') front).length := by
      rw [length_pieces, List.count_append]
      rfl
    rw [List.append_assoc, List.append_assoc, List.singleton_append,
      pieces_append_cons front _ (by rfl), hcount, List.getElem?_append_right le_rfl, hrest,
      Nat.sub_self]
    rfl

/-- A line that is cut out of a text is not the last piece of it exactly if something stands after
it. -/
theorem lt_length_iff (h : IsCut text before line after) :
    before.count '\n' + 1 < (pieces (· == '\n') text).length ↔ after ≠ [] := by
  have hline := List.count_eq_zero.2 h.line_bare
  rw [length_pieces, ← h.text_eq, List.count_append, List.count_append, hline]
  cases after with
  | nil => simp
  | cons c after =>
    obtain rfl : c = '\n' := h.after_feed c rfl
    simp

end IsCut

/-- Of some lines all are kept but an empty last one. -/
theorem getElem?_dropEmptyLast_iff {k : ℕ} :
    (dropEmptyLast ls)[k]? = some line ↔ ls[k]? = some line ∧ (line = [] → k + 1 < ls.length) := by
  unfold dropEmptyLast
  split_ifs with hlast
  · obtain ⟨front, rfl⟩ := List.getLast?_eq_some_iff.1 hlast
    rw [List.dropLast_concat, List.length_append, List.length_singleton, Nat.add_lt_add_iff_right]
    by_cases hk : k < front.length
    · simp [List.getElem?_append_left hk, hk]
    · have hnone : front[k]? = none := List.getElem?_eq_none (not_lt.1 hk)
      rw [hnone, List.getElem?_append_right (not_lt.1 hk), List.getElem?_singleton]
      split_ifs <;> simp [hk, eq_comm]
  · refine (and_iff_left_of_imp fun hline hempty => ?_).symm
    obtain ⟨hk, -⟩ := List.getElem?_eq_some_iff.1 hline
    refine lt_of_le_of_ne hk fun hlength => hlast ?_
    rw [List.getLast?_eq_getElem?, ← hlength, Nat.add_sub_cancel, hline, hempty]

/-- The lines of a text are those that stand between its line feeds, each without a carriage return
at its end. The place of a line tells how many line feeds are in front of it. -/
theorem getElem?_lines_iff {k : ℕ} :
    (lines text)[k]? = some line ↔
      ∃ written, IsLineAt text k written ∧ dropReturn written = line := by
  rw [lines_eq, List.getElem?_map, Option.map_eq_some_iff]
  refine exists_congr fun written => and_congr_left' ?_
  rw [getElem?_dropEmptyLast_iff]
  constructor
  · rintro ⟨hpiece, hlength⟩
    obtain ⟨before, after, hcut, rfl⟩ := exists_isCut hpiece
    refine ⟨before, after, hcut, rfl, fun hempty => ?_⟩
    obtain ⟨hwritten, hafter⟩ := List.append_eq_nil_iff.1 hempty
    exact hcut.lt_length_iff.1 (hlength hwritten) hafter
  · rintro ⟨before, after, hcut, rfl, hne⟩
    refine ⟨hcut.getElem?_pieces, fun hwritten => hcut.lt_length_iff.2 fun hafter => hne ?_⟩
    rw [hwritten, hafter, List.append_nil]

/-- Without carriage returns in the text the lines are what stands between the line feeds. -/
theorem getElem?_lines_iff_isLineAt (hreturn : '\r' ∉ text) {k : ℕ} :
    (lines text)[k]? = some line ↔ IsLineAt text k line := by
  have hkeep {written : List Char} (h : IsLineAt text k written) :
      dropReturn written = written := by
    obtain ⟨before, after, hcut, -, -⟩ := h
    rw [← hcut.text_eq, List.mem_append, List.mem_append, not_or, not_or] at hreturn
    exact dropReturn_of_not_mem hreturn.1.2
  rw [getElem?_lines_iff]
  constructor
  · rintro ⟨written, hwritten, rfl⟩
    rwa [hkeep hwritten]
  · exact fun h => ⟨line, h, hkeep h⟩

/-! ## Joined lines -/

/-- The ends that lines may have: a line feed, alone or behind a carriage return. -/
def lineEnds : List (List Char) := [['\n'], ['\r', '\n']]

/-- A text can be a line: it has no line feed in it, and no carriage return at its end, which would
be read as a part of the line end. -/
structure IsLine (line : List Char) : Prop where
  /-- There is no line feed in it. -/
  feed : '\n' ∉ line
  /-- There is no carriage return at its end. -/
  last : line.getLast? ≠ some '\r'

/-- Lines without line feeds in them, each with a line feed behind it, are the lines of the text
that they make up, but for carriage returns at their ends. -/
theorem lines_unlines (hne : ls ≠ []) (h : ∀ line ∈ ls, '\n' ∉ line) :
    lines (['\n'].intercalate ls ++ ['\n']) = ls.map dropReturn := by
  rw [lines_eq, dropEmptyLast_pieces_concat,
    pieces_intercalate (by rfl) hne fun line hline => bare_of_not_mem (h line hline)]

/-- A line with an end behind it is the only line of the text. -/
theorem IsLine.lines_ended (h : IsLine line) {lineEnd : List Char} (hend : lineEnd ∈ lineEnds) :
    lines (line ++ lineEnd) = [line] := by
  rcases List.mem_pair.1 hend with rfl | rfl
  · rw [Text.lines_eq, dropEmptyLast_pieces_concat, pieces_bare (bare_of_not_mem h.feed),
      List.map_singleton, dropReturn, if_neg h.last]
  · have hfeed : '\n' ∉ line ++ ['\r'] := by simp [h.feed]
    have hsplit : line ++ ['\r', '\n'] = line ++ ['\r'] ++ ['\n'] := by simp
    rw [hsplit, Text.lines_eq, dropEmptyLast_pieces_concat, pieces_bare (bare_of_not_mem hfeed),
      List.map_singleton, dropReturn, if_pos (by simp), List.dropLast_concat]

/-- A line without an end is the only line of the text, unless it is empty. -/
theorem IsLine.lines_eq (h : IsLine line) (hne : line ≠ []) : lines line = [line] := by
  rw [Text.lines_eq, pieces_bare (bare_of_not_mem h.feed), dropEmptyLast,
    if_neg (by simpa using hne), List.map_singleton, dropReturn, if_neg h.last]

/-- The ends of lines end with a line feed. -/
theorem getLast?_of_mem_lineEnds : ∀ lineEnd ∈ lineEnds, lineEnd.getLast? = some '\n' := by decide

/-- Lines with an end behind each of them are the lines of the text that they make up. -/
theorem lines_flatMap (h : ∀ line ∈ ls, IsLine line) {lineEnd : List Char}
    (hend : lineEnd ∈ lineEnds) : lines (ls.flatMap (· ++ lineEnd)) = ls := by
  induction ls with
  | nil => rfl
  | cons first ls ih =>
    obtain ⟨hfirst, hrest⟩ := List.forall_mem_cons.1 h
    have hlast : ∀ c ∈ (first ++ lineEnd).getLast?, c = '\n' := by
      simpa using getLast?_flatMap (getLast?_of_mem_lineEnds lineEnd hend) [first]
    rw [List.flatMap_cons, lines_append hlast, hfirst.lines_ended hend, ih hrest,
      List.singleton_append]

/-- Lines with an end between neighbours are the lines of the text that they make up, unless the
last one is empty. -/
theorem lines_intercalate (h : ∀ line ∈ ls, IsLine line) {lineEnd : List Char}
    (hend : lineEnd ∈ lineEnds) (hlast : ls.getLast? ≠ some []) :
    lines (lineEnd.intercalate ls) = ls := by
  rcases List.eq_nil_or_concat' ls with rfl | ⟨front, last, rfl⟩
  · rfl
  · obtain ⟨hfront, hline⟩ := List.forall_mem_append.1 h
    have hne : last ≠ [] := fun heq => hlast (by simp [heq])
    rw [intercalate_append_cons, List.flatMap_nil, List.append_nil,
      lines_append (getLast?_flatMap (getLast?_of_mem_lineEnds lineEnd hend) front),
      lines_flatMap hfront hend, (List.forall_mem_singleton.1 hline).lines_eq hne]

/-- No piece is left out of a text that does not end with a line feed, unless it is empty. -/
theorem dropEmptyLast_pieces (hne : text ≠ []) (hlast : text.getLast? ≠ some '\n') :
    dropEmptyLast (pieces (· == '\n') text) = pieces (· == '\n') text := by
  refine if_neg fun hempty => ?_
  obtain ⟨front, hpieces⟩ := List.getLast?_eq_some_iff.1 hempty
  have htext : front.flatMap (· ++ ['\n']) = text := by
    rw [← intercalate_pieces '\n' text, hpieces, intercalate_append_cons]
    simp
  -- So the text is one of pieces with a line feed behind each of them.
  have hfeed : ∀ c ∈ text.getLast?, c = '\n' := htext ▸ getLast?_flatMap rfl front
  obtain ⟨before, c, rfl⟩ := (List.eq_nil_or_concat' text).resolve_left hne
  obtain rfl := hfeed c (by simp)
  exact hlast (by simp)

/-- The lines of a text without carriage returns make it up again, with a line feed between
neighbours, and one behind the last line if the text ends with one. -/
theorem intercalate_lines (hreturn : '\r' ∉ text) :
    ['\n'].intercalate (lines text) ++ (if text.getLast? = some '\n' then ['\n'] else []) =
      text := by
  have hkeep : lines text = dropEmptyLast (pieces (· == '\n') text) := by
    rw [lines_eq]
    refine (List.map_congr_left fun piece hpiece => ?_).trans (List.map_id _)
    exact dropReturn_of_not_mem fun hmem =>
      hreturn (mem_of_mem_pieces ((isPrefix_dropEmptyLast _).subset hpiece) hmem).1
  rw [hkeep]
  by_cases hlast : text.getLast? = some '\n'
  · obtain ⟨front, rfl⟩ := List.getLast?_eq_some_iff.1 hlast
    rw [if_pos hlast, dropEmptyLast_pieces_concat, intercalate_pieces]
  · rw [if_neg hlast, List.append_nil]
    rcases eq_or_ne text [] with rfl | hne
    · rfl
    · rw [dropEmptyLast_pieces hne hlast, intercalate_pieces]

/-- Cutting a text into lines and joining lines undo each other. Lines with one end behind each of
them, or only between neighbours if the last one is not empty, are the lines of the text that they
make up. The lines of a text without carriage returns make it up again, and each of them stands in
its place between the line feeds. -/
theorem lines_joined (ls : List (List Char)) (text : List Char) :
    ((∀ line ∈ ls, IsLine line) → ∀ lineEnd ∈ lineEnds,
      lines (ls.flatMap (· ++ lineEnd)) = ls ∧
        (ls.getLast? ≠ some [] → lines (lineEnd.intercalate ls) = ls)) ∧
    ('\r' ∉ text →
      ['\n'].intercalate (lines text) ++ (if text.getLast? = some '\n' then ['\n'] else []) =
        text ∧
      ∀ k line, (lines text)[k]? = some line ↔ IsLineAt text k line) := by
  constructor
  · intro h lineEnd hend
    exact ⟨lines_flatMap h hend, lines_intercalate h hend⟩
  · intro hreturn
    exact ⟨intercalate_lines hreturn, fun k line => getElem?_lines_iff_isLineAt hreturn⟩

/-- Lines with a line separator in one, nothing in another and a carriage return in front of one. -/
def oddLines : List (List Char) := ["la\u2028la".toList, [], "\rla".toList]

/-- With the longer line end behind or between them, the lines are those of the text that they make
up. -/
theorem lines_joined_oddLines :
    (∀ line ∈ oddLines, IsLine line) ∧ ['\r', '\n'] ∈ lineEnds ∧ oddLines.getLast? ≠ some [] ∧
      lines "la\u2028la\r\n\r\n\rla\r\n".toList = oddLines ∧
      lines "la\u2028la\r\n\r\n\rla".toList = oddLines ∧
      '\r' ∉ "\nla\n\n".toList ∧ IsLineAt "\nla\n\n".toList 1 "la".toList := by
  have hlines : ∀ line ∈ oddLines, IsLine line := by
    have hall : ∀ line ∈ oddLines, '\n' ∉ line ∧ line.getLast? ≠ some '\r' := by decide
    exact fun line hline => ⟨(hall line hline).1, (hall line hline).2⟩
  have hend : ['\r', '\n'] ∈ lineEnds := by decide
  have hlast : oddLines.getLast? ≠ some [] := by decide
  have hreturn : '\r' ∉ "\nla\n\n".toList := by decide
  obtain ⟨hjoined, hcut⟩ := lines_joined oddLines "\nla\n\n".toList
  obtain ⟨hended, hbetween⟩ := hjoined hlines _ hend
  exact ⟨hlines, hend, hlast, hended, hbetween hlast, hreturn,
    ((hcut hreturn).2 1 "la".toList).1 (by decide)⟩

end CueSheet.Text
