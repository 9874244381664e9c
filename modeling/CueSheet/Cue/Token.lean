import CueSheet.Text.Blank

/-!
# Tokens of a cue

The body of a cue is cut into tokens at its blanks. A run between two double quotes holds its blanks
together, and quoted runs and bare characters without a blank between them make one token. A quote
without a partner is dropped first, and it is always the last one that has none.
-/

namespace CueSheet.Token

open Text (isBlank)

/-- The longest token at the start of a text, and the text after it. A quote without a partner ends
the token. -/
def scan (text : List Char) : List Char × List Char :=
  match text with
  | [] => ([], [])
  | c :: rest =>
    if c = '"' then
      match _h : rest.dropWhile (· != '"') with
      | [] => ([], text)
      | close :: after =>
        let (more, left) := scan after
        (c :: rest.takeWhile (· != '"') ++ close :: more, left)
    else if isBlank c then ([], text)
    else
      let (more, left) := scan rest
      (c :: more, left)
termination_by text.length
decreasing_by
  · have := (List.dropWhile_sublist (· != '"') (l := rest)).length_le
    simp only [_h, List.length_cons] at this ⊢
    omega
  · simp

/-- No character is lost by a scan. -/
theorem scan_append (text : List Char) : (scan text).1 ++ (scan text).2 = text := by
  fun_induction scan text with
  | case1 => rfl
  | case2 => rfl
  | case3 rest close after h more left hs ih =>
    simp only [hs] at ih
    simp only [List.cons_append, List.append_assoc, List.cons.injEq, true_and]
    rw [ih, ← h, List.takeWhile_append_dropWhile]
  | case4 => rfl
  | case5 c rest hq hb more left hs ih =>
    simp only [hs] at ih
    simp [ih]

/-- What a scan leaves after a token is shorter than the text. -/
theorem length_scan_lt {text : List Char} (h : (scan text).1 ≠ []) :
    (scan text).2.length < text.length := by
  have := congrArg List.length (scan_append text)
  simp only [List.length_append] at this
  have := List.length_pos_iff.2 h
  omega

/-- The tokens of a text in order; characters that start no token are passed over. -/
def scanAll (text : List Char) : List (List Char) :=
  match text with
  | [] => []
  | c :: rest =>
    if _h : (scan (c :: rest)).1 = [] then scanAll rest
    else (scan (c :: rest)).1 :: scanAll (scan (c :: rest)).2
termination_by text.length
decreasing_by
  · simp
  · exact length_scan_lt _h

/-- Whether a text has an odd number of quotes. -/
def hasLoneQuote (text : List Char) : Bool := text.count '"' % 2 = 1

/-- The text without its last quote. -/
def dropLastQuote (text : List Char) : List Char :=
  (text.reverse.erase '"').reverse

/-- The text with its quotes in pairs. -/
def balanced (text : List Char) : List Char :=
  if hasLoneQuote text then dropLastQuote text else text

/-- The tokens of the body of a cue. -/
def split (body : List Char) : List (List Char) := scanAll (balanced body)

/-- A token without its quotes. -/
def unquoted (token : List Char) : List Char := token.filter (· != '"')

example : split "SFX \"crowd roar\" a=\"b c\"d \"e".toList =
    ["SFX".toList, "\"crowd roar\"".toList, "a=\"b c\"d".toList, "e".toList] := by
  decide +kernel

end CueSheet.Token
