import Mathlib.Data.List.TakeWhile
import Mathlib.Order.Basic
import CueSheet.Cue.Token

/-!
# Texts that are cut into given tokens

A text can be read from outside or from inside quotes, and ends outside or inside again, unless it
has a blank outside (`readOver`). The tokens of a text are whole: read from outside, they end outside
(`isWhole_of_mem_split`). Conversely, whole tokens with one space between neighbours are cut into just
these tokens (`split_intercalate`).
-/

namespace CueSheet.Token

open Text (isBlank)

/-- Where a text ends that is read from outside or from inside quotes: inside quotes or not. A blank
outside quotes ends a token, and so the text. -/
def readOver : Bool → List Char → Option Bool
  | isInside, [] => some isInside
  | isInside, c :: rest =>
    if c = '"' then readOver (!isInside) rest
    else if !isInside && isBlank c then none
    else readOver isInside rest

/-- A text can stand as a token by itself. -/
structure IsWhole (token : List Char) : Prop where
  /-- It is not empty. -/
  ne_nil : token ≠ []
  /-- Its blanks are in quotes, and its quotes are in pairs. -/
  closed : readOver false token = some false

variable {isInside : Bool} {xs ys token body rest : List Char}

/-- A text is read over part by part. -/
theorem readOver_append (isInside : Bool) (xs ys : List Char) :
    readOver isInside (xs ++ ys) = (readOver isInside xs).bind fun state => readOver state ys := by
  induction xs generalizing isInside with
  | nil => rfl
  | cons c xs ih =>
    rw [List.cons_append, readOver, readOver]
    split_ifs
    · exact ih _
    · rfl
    · exact ih _

/-- Without blanks and quotes a text ends where it starts. -/
theorem readOver_bare (isInside : Bool) (h : ∀ c ∈ xs, c ≠ '"' ∧ isBlank c = false) :
    readOver isInside xs = some isInside := by
  induction xs with
  | nil => rfl
  | cons c xs ih =>
    obtain ⟨hquote, hblank⟩ := h c List.mem_cons_self
    rw [readOver, if_neg hquote, hblank, Bool.and_false, if_neg Bool.false_ne_true]
    exact ih fun c hc => h c (List.mem_cons_of_mem _ hc)

/-- Inside quotes only a quote matters. -/
theorem readOver_inside (h : '"' ∉ xs) : readOver true xs = some true := by
  induction xs with
  | nil => rfl
  | cons c xs ih =>
    obtain ⟨hquote, hrest⟩ := not_or.1 (List.mem_cons.not.1 h)
    rw [readOver, if_neg (Ne.symm hquote)]
    exact ih hrest

/-- A text that ends outside, read from inside, has a quote that leaves the quotes. -/
theorem exists_quote (h : readOver true xs = some false) :
    ∃ run after, xs = run ++ '"' :: after ∧ '"' ∉ run ∧ readOver false after = some false := by
  induction xs with
  | nil => cases h
  | cons c xs ih =>
    rw [readOver] at h
    by_cases hquote : c = '"'
    · rw [if_pos hquote] at h
      exact ⟨[], xs, by rw [hquote]; rfl, by simp, h⟩
    · rw [if_neg hquote] at h
      obtain ⟨run, after, rfl, hrun, hafter⟩ := ih h
      exact ⟨c :: run, after, rfl, by simp [hrun, Ne.symm hquote], hafter⟩

/-- How many quotes a text has tells whether it ends where it starts. -/
theorem count_of_readOver {state : Bool} (h : readOver isInside xs = some state) :
    xs.count '"' % 2 = if isInside = state then 0 else 1 := by
  induction xs generalizing isInside with
  | nil =>
    obtain rfl := Option.some.inj h
    simp
  | cons c xs ih =>
    rw [readOver] at h
    split_ifs at h with hquote hblank
    · have := ih h
      rw [hquote, List.count_cons_self]
      cases isInside <;> cases state <;> simp_all <;> omega
    · rw [List.count_cons_of_ne hquote]
      exact ih h

/-! ## Scanning -/

/-- The quote is not blank. -/
theorem isBlank_quote : isBlank '"' = false := by decide

/-- No blank is a quote. -/
theorem ne_quote_of_isBlank {c : Char} (h : isBlank c = true) : c ≠ '"' := by
  rintro rfl
  rw [isBlank_quote] at h
  cases h

/-- What is left of a text from its first quote on starts with the quote, and no other one stands in
front of it. -/
theorem of_dropWhile_quote {close : Char} {after : List Char}
    (h : rest.dropWhile (· != '"') = close :: after) :
    close = '"' ∧ '"' ∉ rest.takeWhile (· != '"') := by
  constructor
  · have := List.head?_dropWhile_not (· != '"') rest
    rw [h] at this
    simpa using this
  · intro hmem
    simpa using List.mem_takeWhile_imp hmem

/-- A bare character joins the token that is scanned after it. -/
theorem scan_bare {c : Char} (rest : List Char) (hquote : c ≠ '"') (hblank : isBlank c = false) :
    scan (c :: rest) = (c :: (scan rest).1, (scan rest).2) := by
  rw [scan, if_neg hquote, hblank, if_neg Bool.false_ne_true]

/-- A blank ends a token. -/
theorem scan_blank {c : Char} (rest : List Char) (hblank : isBlank c = true) :
    scan (c :: rest) = ([], c :: rest) := by
  rw [scan, if_neg (ne_quote_of_isBlank hblank), if_pos hblank]

/-- A run between two quotes joins the token that is scanned after it. -/
theorem scan_quoted {run : List Char} (after : List Char) (hrun : '"' ∉ run) :
    scan ('"' :: (run ++ '"' :: after)) =
      ('"' :: run ++ '"' :: (scan after).1, (scan after).2) := by
  have hinner : ∀ c ∈ run, (c != '"') = true := fun c hc => by
    simpa using fun heq : c = '"' => hrun (heq ▸ hc)
  have hdrop : (run ++ '"' :: after).dropWhile (· != '"') = '"' :: after := by
    rw [List.dropWhile_append_of_pos hinner, List.dropWhile_cons_of_neg (by decide)]
  have htake : (run ++ '"' :: after).takeWhile (· != '"') = run := by
    rw [List.takeWhile_append_of_pos hinner, List.takeWhile_cons_of_neg (by decide),
      List.append_nil]
  rw [scan, if_pos rfl, htake]
  split
  · next heq =>
    rw [hdrop] at heq
    cases heq
  · next close rest heq =>
    rw [hdrop] at heq
    obtain ⟨rfl, rfl⟩ := List.cons.inj heq
    rfl

/-- A text that ends outside quotes is scanned up to a blank or the end. -/
theorem scan_of_readOver {rest : List Char} (hrest : ∀ c ∈ rest.head?, isBlank c = true) :
    ∀ {xs : List Char}, readOver false xs = some false → scan (xs ++ rest) = (xs, rest)
  | [], _ => by
    cases rest with
    | nil => rw [List.append_nil, scan]
    | cons c rest => rw [List.nil_append, scan_blank rest (hrest c rfl)]
  | c :: xs, h => by
    rw [readOver] at h
    split_ifs at h with hquote hblank
    · -- The induction goes on behind the quote that leaves the quotes again.
      obtain ⟨run, after, hxs, hrun, hafter⟩ := exists_quote h
      have ih := scan_of_readOver hrest hafter
      rw [hquote, hxs, List.cons_append, List.append_assoc, List.cons_append, scan_quoted _ hrun,
        ih]
      simp
    · have ih := scan_of_readOver hrest h
      rw [Bool.not_eq_true, Bool.not_false, Bool.true_and] at hblank
      rw [List.cons_append, scan_bare _ hquote hblank, ih]
termination_by xs => xs.length
decreasing_by
  · rw [hxs]
    simp
    omega
  · simp

/-- What is scanned ends outside quotes. -/
theorem readOver_scan (text : List Char) : readOver false (scan text).1 = some false := by
  fun_induction scan text with
  | case1 | case2 | case4 => rfl
  | case3 rest close after h more left hs ih =>
    rw [hs] at ih
    obtain ⟨hclose, hrun⟩ := of_dropWhile_quote h
    show readOver false ('"' :: rest.takeWhile (· != '"') ++ close :: more) = some false
    rw [List.cons_append, readOver, if_pos rfl, readOver_append, Bool.not_false,
      readOver_inside hrun, hclose]
    exact ih
  | case5 c rest hquote hblank more left hs ih =>
    rw [hs] at ih
    rw [Bool.not_eq_true] at hblank
    show readOver false (c :: more) = some false
    rw [readOver, if_neg hquote, hblank, Bool.and_false, if_neg Bool.false_ne_true]
    exact ih

/-- The tokens that are scanned are whole. -/
theorem isWhole_of_mem_scanAll {text token : List Char} (h : token ∈ scanAll text) :
    IsWhole token := by
  fun_induction scanAll text with
  | case1 => cases h
  | case2 c rest hempty ih => exact ih h
  | case3 c rest hne ih =>
    rcases List.mem_cons.1 h with rfl | h
    · exact ⟨hne, readOver_scan _⟩
    · exact ih h

/-- The tokens of the body of a cue are whole. -/
theorem isWhole_of_mem_split (h : token ∈ split body) : IsWhole token := isWhole_of_mem_scanAll h

/-- The characters of tokens are those of the text. -/
theorem mem_of_mem_scanAll {text token : List Char} (h : token ∈ scanAll text) {c : Char}
    (hc : c ∈ token) : c ∈ text := by
  fun_induction scanAll text with
  | case1 => cases h
  | case2 first rest hempty ih => exact List.mem_cons_of_mem _ (ih h)
  | case3 first rest hne ih =>
    rw [← scan_append (first :: rest), List.mem_append]
    rcases List.mem_cons.1 h with rfl | h
    · exact .inl hc
    · exact .inr (ih h)

/-- The characters of the tokens of a cue are those of its body. -/
theorem mem_of_mem_split (h : token ∈ split body) {c : Char} (hc : c ∈ token) : c ∈ body := by
  have hmem := mem_of_mem_scanAll h hc
  unfold balanced at hmem
  split_ifs at hmem
  · rw [dropLastQuote, List.mem_reverse] at hmem
    exact List.mem_reverse.1 (List.mem_of_mem_erase hmem)
  · exact hmem

/-! ## Cutting whole tokens with a space between neighbours -/

/-- The first character of a whole token is not blank. -/
theorem IsWhole.not_isBlank_head (h : IsWhole token) : ∀ c ∈ token.head?, isBlank c = false := by
  intro c hc
  obtain ⟨rest, rfl⟩ : ∃ rest, token = c :: rest := by
    cases token with
    | nil => cases hc
    | cons d rest => exact ⟨rest, by rw [Option.some.inj hc]⟩
  have hclosed := h.closed
  rw [readOver] at hclosed
  split_ifs at hclosed with hquote hblank
  · rw [hquote]
    exact isBlank_quote
  · simpa using hblank

/-- A whole token in front of a blank or at the end is the first token of a text. -/
theorem scanAll_of_isWhole (h : IsWhole token) (hrest : ∀ c ∈ rest.head?, isBlank c = true) :
    scanAll (token ++ rest) = token :: scanAll rest := by
  have hscan := scan_of_readOver hrest h.closed
  obtain ⟨c, after, rfl⟩ := List.exists_cons_of_ne_nil h.ne_nil
  rw [List.cons_append] at hscan ⊢
  rw [scanAll, dif_neg (by rw [hscan]; simp), hscan]

/-- A blank in front of a text is passed over. -/
theorem scanAll_blank {c : Char} (rest : List Char) (hblank : isBlank c = true) :
    scanAll (c :: rest) = scanAll rest := by
  rw [scanAll, dif_pos (by rw [scan_blank rest hblank])]

/-- Whole tokens with one space between neighbours are the tokens of the text. -/
theorem scanAll_intercalate {tokens : List (List Char)} (h : ∀ token ∈ tokens, IsWhole token) :
    scanAll ([' '].intercalate tokens) = tokens := by
  induction tokens with
  | nil => rw [List.intercalate_nil, scanAll]
  | cons token tokens ih =>
    have hfirst := h token List.mem_cons_self
    have hrest := ih fun token htoken => h token (List.mem_cons_of_mem _ htoken)
    cases tokens with
    | nil =>
      have hscan : scanAll (token ++ []) = token :: scanAll [] := scanAll_of_isWhole hfirst (by simp)
      rw [List.append_nil, scanAll] at hscan
      rw [List.intercalate_singleton, hscan]
    | cons second others =>
      have hspace : isBlank ' ' = true := by decide
      rw [List.intercalate_cons_cons, List.append_assoc, List.singleton_append,
        scanAll_of_isWhole hfirst (by simpa using hspace), scanAll_blank _ hspace, hrest]

/-- Whole tokens with spaces between them have their quotes in pairs. -/
theorem even_count_intercalate {tokens : List (List Char)} (h : ∀ token ∈ tokens, IsWhole token) :
    ([' '].intercalate tokens).count '"' % 2 = 0 := by
  induction tokens with
  | nil => rfl
  | cons token tokens ih =>
    have hfirst := count_of_readOver (h token List.mem_cons_self).closed
    have hrest := ih fun token htoken => h token (List.mem_cons_of_mem _ htoken)
    rw [if_pos rfl] at hfirst
    cases tokens with
    | nil => rwa [List.intercalate_singleton]
    | cons second others =>
      rw [List.intercalate_cons_cons, List.count_append, List.count_append,
        List.count_singleton]
      simp
      omega

/-- A text with its quotes in pairs keeps all of them. -/
theorem balanced_of_even {text : List Char} (h : text.count '"' % 2 = 0) : balanced text = text := by
  rw [balanced, hasLoneQuote, h]
  rfl

/-- Whole tokens with one space between neighbours are the tokens of a cue. -/
theorem split_intercalate {tokens : List (List Char)} (h : ∀ token ∈ tokens, IsWhole token) :
    split ([' '].intercalate tokens) = tokens := by
  rw [split, balanced_of_even (even_count_intercalate h), scanAll_intercalate h]

end CueSheet.Token
