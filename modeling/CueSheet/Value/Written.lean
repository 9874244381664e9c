import CueSheet.Numeric.Written
import CueSheet.Value

/-!
# Values in writing

Messages and songs in writing show values of any kind: a list in square brackets, and a record in
braces with a colon after each name. Texts inside a list or a record stand in quotes, and so does a
text that a message quotes.
-/

namespace CueSheet.Value

variable {τ : Type}

mutual

/-- A value in writing, where texts are written by `quote`. -/
def write (quote : τ → List Char) : Value τ → Except Fault (List Char)
  | null => .ok "None".toList
  | number x => x.write
  | text t => .ok (quote t)
  | list items => do return '[' :: (← writeItems quote items) ++ [']']
  | record members => do return '\x7b' :: (← writeMembers quote members) ++ ['\x7d']

/-- The items of a list, with commas between them. -/
def writeItems (quote : τ → List Char) : List (Value τ) → Except Fault (List Char)
  | [] => .ok []
  | [item] => write quote item
  | item :: items => do return (← write quote item) ++ ',' :: ' ' :: (← writeItems quote items)

/-- The members of a record, with commas between them. -/
def writeMembers (quote : τ → List Char) : List (τ × Value τ) → Except Fault (List Char)
  | [] => .ok []
  | [(name, value)] => do return quote name ++ ':' :: ' ' :: (← write quote value)
  | (name, value) :: members => do
    return quote name ++ ':' :: ' ' :: (← write quote value) ++
      ',' :: ' ' :: (← writeMembers quote members)

end

/-- A value as it is quoted in messages: texts stand in quotes. -/
def quoted (value : Value) : Except Fault String :=
  return String.ofList (← value.write fun s => Text.quote s.toList)

/-- A value in writing: a text stands as it is. -/
def shown : Value → Except Fault String
  | null => .ok "None"
  | number x => x.shown
  | text s => .ok s
  | list items => (list items).quoted
  | record members => (record members).quoted

end CueSheet.Value
