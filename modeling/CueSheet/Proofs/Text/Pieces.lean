import CueSheet.Proofs.Text.Blank

/-!
# Texts between separators

Texts without a separator in them, with one separator between neighbours, are cut into just these
texts (`pieces_intercalate`), and the pieces of a text make it up again (`intercalate_pieces`). From
this follows what the words of a collapsed text are.
-/

namespace CueSheet.Text

variable {isSeparator : Char → Bool} {text : List Char}

/-- A character that is the only separator separates nothing in a text without it. -/
theorem bare_of_not_mem {s : Char} (h : s ∉ text) : ∀ c ∈ text, (c == s) = false := fun _ hc =>
  beq_eq_false_iff_ne.2 fun heq => h (heq ▸ hc)

/-- A text without separators is one piece. -/
theorem pieces_bare (h : ∀ c ∈ text, isSeparator c = false) : pieces isSeparator text = [text] := by
  induction text with
  | nil => rfl
  | cons c text ih =>
    rw [pieces_cons, ih fun c hc => h c (List.mem_cons_of_mem _ hc), consPiece,
      h c List.mem_cons_self]
    rfl

/-- A separator ends the pieces of the text in front of it. -/
theorem pieces_append_cons {s : Char} (text rest : List Char) (hs : isSeparator s = true) :
    pieces isSeparator (text ++ s :: rest) =
      pieces isSeparator text ++ pieces isSeparator rest := by
  induction text with
  | nil =>
    rw [List.nil_append, pieces_cons, consPiece, if_pos hs]
    rfl
  | cons c text ih =>
    rw [List.cons_append, pieces_cons, pieces_cons, ih, consPiece, consPiece]
    split_ifs
    · rfl
    · obtain ⟨first, others, hpieces⟩ := List.exists_cons_of_ne_nil (pieces_ne_nil isSeparator text)
      rw [hpieces]
      rfl

/-- A separator ends a piece. -/
theorem pieces_append {s : Char} (rest : List Char) (h : ∀ c ∈ text, isSeparator c = false)
    (hs : isSeparator s = true) :
    pieces isSeparator (text ++ s :: rest) = text :: pieces isSeparator rest := by
  rw [pieces_append_cons text rest hs, pieces_bare h, List.singleton_append]

/-- The first piece is the start of the text. -/
theorem isPrefix_of_pieces_eq {first : List Char} {others : List (List Char)}
    (h : pieces isSeparator text = first :: others) : first <+: text := by
  induction text generalizing first others with
  | nil =>
    obtain ⟨rfl, -⟩ := List.cons.inj h
    exact List.nil_prefix
  | cons c text ih =>
    obtain ⟨next, rest, hpieces⟩ := List.exists_cons_of_ne_nil (pieces_ne_nil isSeparator text)
    rw [pieces_cons, hpieces, consPiece] at h
    split_ifs at h
    · obtain ⟨rfl, -⟩ := List.cons.inj h
      exact List.nil_prefix
    · obtain ⟨rfl, -⟩ := List.cons.inj h
      exact (List.cons_prefix_cons).2 ⟨rfl, ih hpieces⟩

/-- Texts without separators are the pieces of what they make up with one separator between
neighbours. -/
theorem pieces_intercalate {s : Char} (hs : isSeparator s = true) {texts : List (List Char)}
    (hne : texts ≠ []) (h : ∀ text ∈ texts, ∀ c ∈ text, isSeparator c = false) :
    pieces isSeparator ([s].intercalate texts) = texts := by
  induction texts with
  | nil => exact absurd rfl hne
  | cons first texts ih =>
    have hfirst := h first List.mem_cons_self
    cases texts with
    | nil => rw [List.intercalate_singleton, pieces_bare hfirst]
    | cons second others =>
      rw [List.intercalate_cons_cons, List.append_assoc, List.singleton_append,
        pieces_append _ hfirst hs,
        ih (List.cons_ne_nil _ _) fun text htext => h text (List.mem_cons_of_mem _ htext)]

/-- Pieces are cut at each separator. -/
theorem pieces_eq_splitOnP (isSeparator : Char → Bool) (text : List Char) :
    pieces isSeparator text = text.splitOnP isSeparator := by
  induction text with
  | nil => rfl
  | cons c text ih => rw [pieces_cons, consPiece, ih, List.splitOnP_cons_eq_if_modifyHead]

/-- The pieces of a text make it up again with one separator between neighbours. -/
theorem intercalate_pieces (s : Char) (text : List Char) :
    [s].intercalate (pieces (· == s) text) = text := by
  rw [pieces_eq_splitOnP]
  exact List.intercalate_splitOn s

/-- There is one piece more than there are separators. -/
theorem length_pieces (s : Char) (text : List Char) :
    (pieces (· == s) text).length = text.count s + 1 := by
  induction text with
  | nil => rfl
  | cons c text ih =>
    rw [pieces_cons, consPiece, List.count_cons]
    split_ifs with hc
    · rw [List.length_cons, ih]
    · rw [List.length_modifyHead, ih]

/-- Joined texts are those in front of one of them, each with a separator behind it, and that one,
and those behind it, each with a separator in front of it. -/
theorem intercalate_append_cons {α : Type} (between : List α) (front : List (List α))
    (xs : List α) (back : List (List α)) :
    between.intercalate (front ++ xs :: back) =
      front.flatMap (· ++ between) ++ xs ++ back.flatMap (between ++ ·) := by
  induction front with
  | nil =>
    rw [List.nil_append, List.flatMap_nil, List.nil_append]
    induction back generalizing xs with
    | nil => rw [List.intercalate_singleton, List.flatMap_nil, List.append_nil]
    | cons ys back ih =>
      rw [List.intercalate_cons_cons, ih, List.flatMap_cons, List.append_assoc, List.append_assoc]
  | cons first front ih =>
    rw [List.cons_append, List.intercalate_cons_of_ne_nil (by simp), ih, List.flatMap_cons]
    simp only [List.append_assoc]

/-- The characters of a piece are those of the text, and no separators. -/
theorem mem_of_mem_pieces {piece : List Char} (hpiece : piece ∈ pieces isSeparator text) {c : Char}
    (hc : c ∈ piece) : c ∈ text ∧ isSeparator c = false := by
  induction text generalizing piece with
  | nil =>
    obtain rfl := List.mem_singleton.1 hpiece
    cases hc
  | cons d text ih =>
    rw [pieces_cons, consPiece] at hpiece
    -- A separator opens an empty piece, and any other character goes into the first piece.
    split_ifs at hpiece with hseparator
    · rcases List.mem_cons.1 hpiece with rfl | hpiece
      · cases hc
      · obtain ⟨hmem, hnot⟩ := ih hpiece hc
        exact ⟨List.mem_cons_of_mem _ hmem, hnot⟩
    · cases hpieces : pieces isSeparator text with
      | nil => exact absurd hpieces (pieces_ne_nil _ _)
      | cons first rest =>
        rw [hpieces, List.modifyHead_cons] at hpiece
        rcases List.mem_cons.1 hpiece with rfl | hpiece
        · rcases List.mem_cons.1 hc with rfl | hc
          · exact ⟨List.mem_cons_self, by simpa using hseparator⟩
          · obtain ⟨hmem, hnot⟩ := ih (hpieces ▸ List.mem_cons_self) hc
            exact ⟨List.mem_cons_of_mem _ hmem, hnot⟩
        · obtain ⟨hmem, hnot⟩ := ih (hpieces ▸ List.mem_cons_of_mem _ hpiece) hc
          exact ⟨List.mem_cons_of_mem _ hmem, hnot⟩

/-- A character that is no separator is in some piece. -/
theorem exists_mem_pieces {c : Char} (hc : c ∈ text) (h : isSeparator c = false) :
    ∃ piece ∈ pieces isSeparator text, c ∈ piece := by
  induction text with
  | nil => cases hc
  | cons d text ih =>
    rw [pieces_cons, consPiece]
    rcases List.mem_cons.1 hc with rfl | hc
    · rw [h, if_neg Bool.false_ne_true]
      cases hpieces : pieces isSeparator text with
      | nil => exact absurd hpieces (pieces_ne_nil _ _)
      | cons first rest => exact ⟨c :: first, by simp, List.mem_cons_self⟩
    · obtain ⟨piece, hpiece, hmem⟩ := ih hc
      split_ifs
      · exact ⟨piece, List.mem_cons_of_mem _ hpiece, hmem⟩
      · cases hpieces : pieces isSeparator text with
        | nil => exact absurd hpieces (pieces_ne_nil _ _)
        | cons first rest =>
          rw [hpieces] at hpiece
          rcases List.mem_cons.1 hpiece with rfl | hpiece
          · exact ⟨d :: piece, by simp, List.mem_cons_of_mem _ hmem⟩
          · exact ⟨piece, by simp [hpiece], hmem⟩

/-- Characters outside the class of separators that are kept, and separators that are turned into
separators, leave the pieces as they are. -/
theorem pieces_map {f : Char → Char} {isJoint : Char → Bool}
    (hclass : ∀ c, isSeparator (f c) = isJoint c) (hkeeps : ∀ c, isJoint c = false → f c = c)
    (text : List Char) : pieces isSeparator (text.map f) = pieces isJoint text := by
  induction text with
  | nil => rfl
  | cons c text ih =>
    rw [List.map_cons, pieces_cons, pieces_cons, ih, consPiece, consPiece, hclass]
    split_ifs with hjoint
    · rfl
    · rw [hkeeps c (by simpa using hjoint)]

/-! ## Runs -/

/-- A run is not empty and has no separators. -/
theorem of_mem_runs {run : List Char} (h : run ∈ runs isSeparator text) :
    run ≠ [] ∧ ∀ c ∈ run, c ∈ text ∧ isSeparator c = false := by
  obtain ⟨hpiece, hne⟩ := List.mem_filter.1 h
  exact ⟨by simpa using hne, fun c hc => mem_of_mem_pieces hpiece hc⟩

/-- Runs with one separator between neighbours are the runs of what they make up. -/
theorem runs_intercalate {s : Char} (hs : isSeparator s = true) {rs : List (List Char)}
    (h : ∀ run ∈ rs, run ≠ [] ∧ ∀ c ∈ run, isSeparator c = false) :
    runs isSeparator ([s].intercalate rs) = rs := by
  cases rs with
  | nil => rfl
  | cons first rest =>
    rw [runs, pieces_intercalate hs (List.cons_ne_nil _ _) fun run hrun => (h run hrun).2,
      List.filter_eq_self]
    intro run hrun
    simpa using (h run hrun).1

/-- A separator at the start belongs to no run. -/
theorem runs_separator {s : Char} (text : List Char) (hs : isSeparator s = true) :
    runs isSeparator (s :: text) = runs isSeparator text := by
  rw [runs, pieces_cons, consPiece, if_pos hs, List.filter_cons_of_neg (by simp), runs]

/-- A character in front of a separator or the end is a run by itself. -/
theorem runs_single {c : Char} (hc : isSeparator c = false)
    (h : ∀ d ∈ text.head?, isSeparator d = true) :
    runs isSeparator (c :: text) = [c] :: runs isSeparator text := by
  cases text with
  | nil => simp [runs, consPiece, hc]
  | cons d text => simp [runs, consPiece, hc, h d rfl]

/-- A character in front of another one that is no separator is in one run with it. -/
theorem runs_joined {c d : Char} (text : List Char) (hc : isSeparator c = false)
    (hd : isSeparator d = false) : ∃ run others,
      runs isSeparator (d :: text) = run :: others ∧
        runs isSeparator (c :: d :: text) = (c :: run) :: others := by
  obtain ⟨first, others, hpieces⟩ := List.exists_cons_of_ne_nil (pieces_ne_nil isSeparator text)
  refine ⟨d :: first, others.filter (!·.isEmpty), ?_, ?_⟩ <;>
    simp [runs, consPiece, hc, hd, hpieces]

/-! ## Words -/

/-- A word is not empty and has no blanks. -/
theorem of_mem_words {word : List Char} (h : word ∈ words text) :
    word ≠ [] ∧ ∀ c ∈ word, c ∈ text ∧ isBlank c = false := of_mem_runs h

/-- Words with one space between neighbours are the words of what they make up. -/
theorem words_intercalate {ws : List (List Char)}
    (h : ∀ word ∈ ws, word ≠ [] ∧ ∀ c ∈ word, isBlank c = false) :
    words ([' '].intercalate ws) = ws := runs_intercalate (by decide) h

/-- A collapsed text stays as it is. -/
theorem collapse_collapse (text : List Char) : collapse (collapse text) = collapse text := by
  have hwords : words (collapse text) = words text := words_intercalate fun word hword =>
    ⟨(of_mem_words hword).1, fun c hc => ((of_mem_words hword).2 c hc).2⟩
  rw [collapse, hwords, collapse]

/-- What stands in joined texts stands in one of them or in the text between them. -/
theorem mem_intercalate {α : Type} {between : List α} {xss : List (List α)} {x : α}
    (h : x ∈ between.intercalate xss) : x ∈ between ∨ ∃ xs ∈ xss, x ∈ xs := by
  induction xss with
  | nil => cases h
  | cons xs xss ih =>
    cases xss with
    | nil =>
      rw [List.intercalate_singleton] at h
      exact .inr ⟨xs, by simp, h⟩
    | cons second others =>
      rw [List.intercalate_cons_cons, List.mem_append, List.mem_append] at h
      rcases h with (h | h) | h
      · exact .inr ⟨xs, List.mem_cons_self, h⟩
      · exact .inl h
      · exact (ih h).imp_right fun ⟨ys, hys, hx⟩ => ⟨ys, List.mem_cons_of_mem _ hys, hx⟩

/-- Joined texts hold what each of them holds. -/
theorem mem_intercalate_of_mem {α : Type} {between : List α} {xss : List (List α)} {xs : List α}
    {x : α} (hxs : xs ∈ xss) (hx : x ∈ xs) : x ∈ between.intercalate xss := by
  induction xss with
  | nil => cases hxs
  | cons first xss ih =>
    cases xss with
    | nil =>
      rw [List.mem_singleton.1 hxs] at hx
      rwa [List.intercalate_singleton]
    | cons second others =>
      rw [List.intercalate_cons_cons, List.mem_append]
      rcases List.mem_cons.1 hxs with rfl | hxs
      · exact .inl (List.mem_append_left _ hx)
      · exact .inr (ih hxs)

/-- The characters of a collapsed text are those of the text that are not blank, and spaces. -/
theorem mem_collapse {c : Char} (h : c ∈ collapse text) :
    c ∈ text ∧ isBlank c = false ∨ c = ' ' := by
  rcases mem_intercalate h with h | ⟨word, hword, hc⟩
  · exact .inr (List.mem_singleton.1 h)
  · exact .inl ((of_mem_words hword).2 c hc)

/-- A text with a character that is not blank keeps it when it is collapsed. -/
theorem mem_collapse_of_mem {c : Char} (hc : c ∈ text) (h : isBlank c = false) :
    c ∈ collapse text := by
  obtain ⟨piece, hpiece, hmem⟩ := exists_mem_pieces hc h
  refine mem_intercalate_of_mem (List.mem_filter.2 ⟨hpiece, ?_⟩) hmem
  cases piece with
  | nil => cases hmem
  | cons => rfl

/-- Joined texts have no blanks at their ends if none of them is empty or has any. -/
theorem isStripped_intercalate {between : List Char} {texts : List (List Char)}
    (h : ∀ text ∈ texts, text ≠ [] ∧ IsStripped text) :
    IsStripped (between.intercalate texts) := by
  induction texts with
  | nil => exact ⟨nofun, nofun⟩
  | cons first texts ih =>
    obtain ⟨hne, hfirst⟩ := h first List.mem_cons_self
    have hrest := ih fun text htext => h text (List.mem_cons_of_mem _ htext)
    cases texts with
    | nil => rwa [List.intercalate_singleton]
    | cons second others =>
      have hsecond : between.intercalate (second :: others) ≠ [] := by
        obtain ⟨c, hc⟩ := List.exists_mem_of_ne_nil _ (h second (by simp)).1
        exact List.ne_nil_of_mem (mem_intercalate_of_mem List.mem_cons_self hc)
      rw [List.intercalate_cons_cons]
      refine ⟨fun c hc => ?_, fun c hc => ?_⟩
      · rw [List.append_assoc, List.head?_append_of_ne_nil _ hne] at hc
        exact hfirst.head c hc
      · rw [List.getLast?_append_of_ne_nil _ hsecond] at hc
        exact hrest.last c hc

/-! ## Lists -/

/-- Stripping takes away a blank at the start. -/
theorem strip_cons {c : Char} (text : List Char) (h : isBlank c = true) :
    strip (c :: text) = strip text := by
  rw [strip, stripStart, List.dropWhile_cons_of_pos h, strip, stripStart]

/-- Stripping takes away a blank at the end. -/
theorem strip_concat {c : Char} (text : List Char) (h : isBlank c = true) :
    strip (text ++ [c]) = strip text := by
  have hstart : stripStart (text ++ [c]) = stripStart text ∨
      stripStart (text ++ [c]) = stripStart text ++ [c] := by
    rw [stripStart, List.dropWhile_append]
    split_ifs with hempty
    · left
      rw [List.isEmpty_iff] at hempty
      rw [stripStart, hempty, List.dropWhile_cons_of_pos h, List.dropWhile_nil]
    · exact .inr rfl
  rcases hstart with hsame | happend
  · rw [strip, hsame, strip]
  · rw [strip, happend, stripEnd, List.reverse_append, List.reverse_singleton,
      List.singleton_append, List.dropWhile_cons_of_pos h]
    rfl

/-- A text that starts with a character that is not blank still does when it is stripped. -/
theorem strip_cons_of_not_isBlank {c : Char} (text : List Char) (h : isBlank c = false) :
    strip (c :: text) = c :: stripEnd text := by
  rw [strip, stripStart, List.dropWhile_cons_of_neg (by simp [h]), stripEnd, List.reverse_cons,
    List.dropWhile_append, List.dropWhile_cons_of_neg (by simp [h]), stripEnd]
  split_ifs with hempty
  · rw [List.isEmpty_iff.1 hempty]
    rfl
  · rw [List.reverse_append]
    rfl

/-- Texts that are joined by commas with a space behind each are the stripped pieces between the
commas. -/
theorem strip_pieces_intercalate {texts : List (List Char)} (hne : texts ≠ [])
    (h : ∀ text ∈ texts, IsStripped text ∧ ',' ∉ text) :
    (pieces (· == ',') ([',', ' '].intercalate texts)).map strip = texts := by
  induction texts with
  | nil => exact absurd rfl hne
  | cons first texts ih =>
    obtain ⟨⟨hstripped, hcomma⟩, hrest⟩ := List.forall_mem_cons.1 h
    have hbare := bare_of_not_mem hcomma
    cases texts with
    | nil => rw [List.intercalate_singleton, pieces_bare hbare, List.map_singleton,
        hstripped.strip_eq]
    | cons second others =>
      -- The space behind a comma is at the start of the next piece, where it is stripped off.
      have hspace (ps : List (List Char)) : (ps.modifyHead (' ' :: ·)).map strip = ps.map strip := by
        cases ps with
        | nil => rfl
        | cons p ps =>
          rw [List.modifyHead_cons, List.map_cons, List.map_cons, strip_cons p (by decide)]
      rw [List.intercalate_cons_cons, List.append_assoc, List.cons_append, List.singleton_append,
        pieces_append _ hbare (by rfl), List.map_cons, hstripped.strip_eq, pieces_cons, consPiece,
        if_neg (by decide), hspace, ih (List.cons_ne_nil _ _) hrest]

end CueSheet.Text
