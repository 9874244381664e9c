import CueSheet.Proofs.Cue.Token

/-!
# Tokens are the pieces between blanks outside quotes

Tokens are read one after the other, and quoted runs as a whole. The same tokens come from one scan
from left to right that knows only whether it is inside quotes, and changes that at every quote
(`places`): a blank outside quotes is a gap, and the tokens are the pieces between gaps that are not
empty (`split_eq_piecesOf`). The scan ends outside because a quote without a partner has been dropped.
-/

namespace CueSheet.Token

open Text (isBlank)

/-- The characters of a text, each with whether it stands inside quotes; the text itself stands
inside quotes or not. -/
def places : Bool → List Char → List (Char × Bool)
  | _, [] => []
  | isInside, c :: rest => (c, isInside) :: places (if c = '"' then !isInside else isInside) rest

/-- Whether there is a gap between tokens: a blank outside quotes. -/
def isGap (place : Char × Bool) : Bool := !place.2 && isBlank place.1

/-- The pieces of a text between gaps that are not empty. -/
def piecesOf (text : List Char) : List (List Char) :=
  (((places false text).splitOnP isGap).filter (· ≠ [])).map (·.map Prod.fst)

/-- The quotes of a body are in pairs in a text, and whether one had to be dropped for that. -/
structure IsPaired (body : List Char) (isLone : Bool) (text : List Char) : Prop where
  /-- A body with an even number of quotes is left as it is. -/
  even : body.count '"' % 2 = 0 → isLone = false ∧ text = body
  /-- A body with an odd number of quotes loses the last of them. -/
  odd : body.count '"' % 2 = 1 → isLone = true ∧
    ∃ before after, body = before ++ '"' :: after ∧ '"' ∉ after ∧ text = before ++ after

/-- Tokens are what a scan of a text finds between gaps. -/
structure AreScanned (text : List Char) (tokens : List (List Char)) : Prop where
  /-- They are the pieces between gaps, without the empty ones. -/
  pieces : tokens = piecesOf text
  /-- None is empty. -/
  ne_nil : ∀ token ∈ tokens, token ≠ []
  /-- Each has its quotes in pairs. -/
  even : ∀ token ∈ tokens, token.count '"' % 2 = 0
  /-- None has a gap in it. -/
  closed : ∀ token ∈ tokens, ∀ place ∈ places false token, isGap place = false
  /-- Together they are the text without its gaps. -/
  flatten : tokens.flatten = ((places false text).filter (!isGap ·)).map Prod.fst

variable {isInside : Bool} {xs token body text rest : List Char}

/-! ## Places -/

/-- The places of a text are those of its characters. -/
theorem map_fst_places (isInside : Bool) (text : List Char) :
    (places isInside text).map Prod.fst = text := by
  induction text generalizing isInside with
  | nil => rfl
  | cons c text ih => rw [places, List.map_cons, ih]

/-- Behind a text that is read over the scan goes on from where it ends. -/
theorem places_append {state : Bool} (h : readOver isInside xs = some state) (rest : List Char) :
    places isInside (xs ++ rest) = places isInside xs ++ places state rest := by
  induction xs generalizing isInside with
  | nil =>
    obtain rfl := Option.some.inj h
    rfl
  | cons c xs ih =>
    rw [readOver] at h
    rw [List.cons_append, places, places, List.cons_append]
    split_ifs at h ⊢
    · rw [ih h]
    · rw [ih h]

/-- A text that is read over has no gaps. -/
theorem isGap_of_readOver {state : Bool} (h : readOver isInside xs = some state) :
    ∀ place ∈ places isInside xs, isGap place = false := by
  induction xs generalizing isInside with
  | nil => nofun
  | cons c xs ih =>
    rw [readOver] at h
    rw [places, List.forall_mem_cons]
    split_ifs at h ⊢ with hquote hblank
    · rw [isGap, hquote, isBlank_quote, Bool.and_false]
      exact ⟨rfl, ih h⟩
    · exact ⟨by simpa [isGap] using hblank, ih h⟩

/-- Between gaps stands what is no gap. -/
theorem flatten_splitOnP {α : Type} (p : α → Bool) (xs : List α) :
    (xs.splitOnP p).flatten = xs.filter (!p ·) := by
  induction xs with
  | nil => rfl
  | cons x xs ih =>
    obtain ⟨first, others, hsplit⟩ := List.exists_cons_of_ne_nil (List.splitOnP_ne_nil p xs)
    rw [List.splitOnP_cons_eq_if_modifyHead]
    rw [hsplit] at ih ⊢
    by_cases hx : p x = true <;> simp [hx, ← ih]

/-! ## Pieces -/

/-- A blank in front of a text is passed over. -/
theorem piecesOf_blank {c : Char} (rest : List Char) (hblank : isBlank c = true) :
    piecesOf (c :: rest) = piecesOf rest := by
  have hgap : isGap (c, false) = true := by simpa [isGap] using hblank
  rw [piecesOf, places, if_neg (ne_quote_of_isBlank hblank), List.splitOnP_cons_eq_if_modifyHead, if_pos hgap,
    List.filter_cons_of_neg (by simp), piecesOf]

/-- A whole token in front of a blank or at the end is the first piece of a text. -/
theorem piecesOf_of_isWhole (h : IsWhole token) (hrest : ∀ c ∈ rest.head?, isBlank c = true) :
    piecesOf (token ++ rest) = token :: piecesOf rest := by
  have hclosed := isGap_of_readOver h.closed
  have hne : places false token ≠ [] := fun hnil => h.ne_nil <| by
    rw [← map_fst_places false token, hnil]
    rfl
  have hfirst (others : List (List (Char × Bool))) :
      ((places false token :: others).filter (· ≠ [])).map (·.map Prod.fst) =
        token :: (others.filter (· ≠ [])).map (·.map Prod.fst) := by
    rw [List.filter_cons_of_pos (by simpa using hne), List.map_cons, map_fst_places]
  cases rest with
  | nil =>
    rw [List.append_nil, piecesOf, List.splitOnP_eq_singleton hclosed, hfirst]
    rfl
  | cons c rest =>
    have hblank := hrest c rfl
    have hgap : isGap (c, false) = true := by simpa [isGap] using hblank
    rw [piecesOf_blank rest hblank, piecesOf, places_append h.closed, places,
      if_neg (ne_quote_of_isBlank hblank), List.splitOnP_append_cons _ _ hgap, List.splitOnP_eq_singleton hclosed,
      List.singleton_append, hfirst, piecesOf]

/-! ## Scanning -/

/-- A text with its quotes in pairs is scanned up to a blank or the end. -/
theorem isBlank_head_scan (h : text.count '"' % 2 = 0) :
    ∀ c ∈ (scan text).2.head?, isBlank c = true := by
  fun_induction scan text with
  | case1 =>
    intro c hc
    cases hc
  | case2 rest hdrop =>
    -- Without a quote behind it the first one has no partner.
    have hnone : '"' ∉ rest := fun hmem => by
      simpa using List.dropWhile_eq_nil_iff.1 hdrop '"' hmem
    rw [List.count_cons_self, List.count_eq_zero_of_not_mem hnone] at h
    cases h
  | case3 rest close after hdrop more left hs ih =>
    rw [hs] at ih
    obtain ⟨hclose, hrun⟩ := of_dropWhile_quote hdrop
    refine ih ?_
    rw [← List.takeWhile_append_dropWhile (p := (· != '"')) (l := rest), hdrop, hclose,
      List.count_cons_self, List.count_append, List.count_eq_zero_of_not_mem hrun,
      List.count_cons_self] at h
    omega
  | case4 c rest hquote hblank =>
    intro d hd
    obtain rfl := Option.some.inj hd
    exact hblank
  | case5 c rest hquote hblank more left hs ih =>
    rw [hs] at ih
    rw [List.count_cons_of_ne hquote] at h
    exact ih h

/-- The tokens that are read from a text with its quotes in pairs are its pieces. -/
theorem scanAll_eq_piecesOf (h : text.count '"' % 2 = 0) : scanAll text = piecesOf text := by
  fun_induction scanAll text with
  | case1 => rfl
  | case2 c rest hempty ih =>
    have happend := scan_append (c :: rest)
    rw [hempty, List.nil_append] at happend
    have hblank := isBlank_head_scan h c (by rw [happend]; rfl)
    rw [List.count_cons_of_ne (ne_quote_of_isBlank hblank)] at h
    rw [piecesOf_blank rest hblank, ih h]
  | case3 c rest hne ih =>
    have hwhole : IsWhole (scan (c :: rest)).1 := ⟨hne, readOver_scan _⟩
    have heven := count_of_readOver hwhole.closed
    have hcount := congrArg (List.count '"') (scan_append (c :: rest))
    rw [if_pos rfl] at heven
    rw [List.count_append] at hcount
    have hrest := piecesOf_of_isWhole hwhole (isBlank_head_scan h)
    rw [scan_append] at hrest
    rw [hrest, ih (by omega)]

/-! ## The body of a cue -/

/-- The quotes of the body of a cue are put in pairs. -/
theorem isPaired_balanced (body : List Char) :
    IsPaired body (hasLoneQuote body) (balanced body) := by
  refine ⟨fun heven => ⟨?_, balanced_of_even heven⟩, fun hodd => ?_⟩
  · rw [hasLoneQuote, heven]
    rfl
  · have hlone : hasLoneQuote body = true := by
      rw [hasLoneQuote, hodd]
      rfl
    have hmem : '"' ∈ body.reverse := by
      rw [List.mem_reverse, ← List.count_pos_iff]
      omega
    obtain ⟨after, before, hafter, hreverse, herase⟩ := List.exists_erase_eq hmem
    refine ⟨hlone, before.reverse, after.reverse, ?_, by simpa using hafter, ?_⟩
    · rw [← List.reverse_reverse body, hreverse]
      simp
    · rw [balanced, if_pos hlone, dropLastQuote, herase, List.reverse_append]

/-- The quotes that are left are in pairs. -/
theorem even_count_balanced (body : List Char) : (balanced body).count '"' % 2 = 0 := by
  have hpaired := isPaired_balanced body
  rcases Nat.mod_two_eq_zero_or_one (body.count '"') with heven | hodd
  · rw [(hpaired.even heven).2, heven]
  · obtain ⟨-, before, after, hbody, -, hkept⟩ := hpaired.odd hodd
    rw [hbody, List.count_append, List.count_cons_self] at hodd
    rw [hkept, List.count_append]
    omega

/-- The tokens of the body of a cue are its pieces, its quotes put in pairs. -/
theorem split_eq_piecesOf (body : List Char) : split body = piecesOf (balanced body) :=
  scanAll_eq_piecesOf (even_count_balanced body)

/-- The pieces of a text are together what is left of it without its gaps. -/
theorem flatten_piecesOf (text : List Char) :
    (piecesOf text).flatten = ((places false text).filter (!isGap ·)).map Prod.fst := by
  rw [piecesOf, ← List.map_flatten, List.flatten_filter_ne_nil, flatten_splitOnP]

/-- The tokens of a cue are found by a scan with two states, inside and outside quotes, over its body,
from which the last quote is dropped if their number is odd. They are the pieces between the gaps of
the scan, each with its quotes in pairs and without a gap, and nothing but the gaps is left out. -/
theorem areScanned_split (body : List Char) :
    IsPaired body (hasLoneQuote body) (balanced body) ∧
      AreScanned (balanced body) (split body) := by
  refine ⟨isPaired_balanced body, split_eq_piecesOf body,
    fun token htoken => (isWhole_of_mem_split htoken).ne_nil, fun token htoken => ?_,
    fun token htoken => isGap_of_readOver (isWhole_of_mem_split htoken).closed, ?_⟩
  · rw [count_of_readOver (isWhole_of_mem_split htoken).closed, if_pos rfl]
  · rw [split_eq_piecesOf, flatten_piecesOf]

end CueSheet.Token
