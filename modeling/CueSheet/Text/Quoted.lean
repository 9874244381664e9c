import CueSheet.Text.Hidden

/-!
# Quoted text in messages

A message quotes a text between apostrophes, or between double quotes where the text holds an
apostrophe and no double quote. The quote, the backslash and characters without a shape of their own
are written as escapes, so that the text can be read off the message exactly.
-/

namespace CueSheet.Text

/-- The quote that is put around a text. -/
def quoteMark (text : List Char) : Char :=
  if text.contains '\'' && !text.contains '"' then '"' else '\''

/-- A number in base sixteen, padded with zeros to a width. -/
def hex (width n : Nat) : List Char :=
  let digits := Nat.toDigits 16 n
  List.replicate (width - digits.length) '0' ++ digits

/-- One character inside the given quotes. -/
def quoteChar (mark c : Char) : List Char :=
  if c = mark ∨ c = '\\' then ['\\', c]
  else if c = '\n' then ['\\', 'n']
  else if c = '\r' then ['\\', 'r']
  else if c = '\t' then ['\\', 't']
  else if !isHidden c then [c]
  else if c.toNat < 0x100 then '\\' :: 'x' :: hex 2 c.toNat
  else if c.toNat < 0x10000 then '\\' :: 'u' :: hex 4 c.toNat
  else '\\' :: 'U' :: hex 8 c.toNat

/-- A text between quotes. -/
def quote (text : List Char) : List Char :=
  let mark := quoteMark text
  mark :: text.flatMap (quoteChar mark) ++ [mark]

/-- A text between quotes. -/
def quoted (text : String) : String := String.ofList (quote text.toList)

example : quoted "it's" = "\"it's\"" ∧ quoted "a\t\\\"'" = "'a\\t\\\\\"\\''" := by decide

end CueSheet.Text
