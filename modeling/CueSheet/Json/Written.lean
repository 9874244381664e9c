import CueSheet.Numeric.Written
import CueSheet.Value

/-!
# JSON in writing

A value is written as a JSON document, either on one line or with each item and member on a line of
its own, indented by two blanks for each level. Strings keep all characters but the quote, the
backslash and the controls below the space, which are escaped. Strict JSON has no infinite and no
undefined numbers; to write one is a fault.
-/

namespace CueSheet.Json

/-- How a document is laid out. -/
inductive Style where
  /-- All on one line. -/
  | oneLine
  /-- Each item and member on its own line. -/
  | indented
deriving DecidableEq

/-- What goes in front of the first item at a level, and in front of the closing bracket. -/
def Style.lineBreak : Style → Nat → List Char
  | oneLine, _ => []
  | indented, level => '\n' :: List.replicate (2 * level) ' '

/-- What goes between two items at a level. -/
def Style.separator : Style → Nat → List Char
  | oneLine, _ => [',', ' ']
  | indented, level => ',' :: indented.lineBreak level

/-- One character inside a string. -/
def escapeChar (c : Char) : List Char :=
  if c = '"' ∨ c = '\\' then ['\\', c]
  else if c = '\n' then ['\\', 'n']
  else if c = '\r' then ['\\', 'r']
  else if c = '\t' then ['\\', 't']
  else if c = '\x08' then ['\\', 'b']
  else if c = '\x0c' then ['\\', 'f']
  else if c.toNat < 0x20 then '\\' :: 'u' :: Text.hex 4 c.toNat
  else [c]

/-- A string in quotes. -/
def writeString (s : String) : List Char := '"' :: s.toList.flatMap escapeChar ++ ['"']

/-- A real number in strict JSON. -/
def writeReal (x : Extended) : Except Fault (List Char) :=
  if x.isFinite then .ok x.write else .error (.notStrict (String.ofList x.write))

mutual

/-- A value at a level of indentation. -/
def writeAt (style : Style) (level : Nat) : Value → Except Fault (List Char)
  | .null => .ok "null".toList
  | .number (.bool b) => .ok (if b then "true".toList else "false".toList)
  | .number (.int n) => writeInt n
  | .number (.real x) => writeReal x
  | .text s => .ok (writeString s)
  | .list [] => .ok "[]".toList
  | .list (item :: items) => do
    let first ← writeAt style (level + 1) item
    let rest ← writeItems style (level + 1) items
    return '[' :: style.lineBreak (level + 1) ++ first ++ rest ++ style.lineBreak level ++ [']']
  | .record [] => .ok ['\x7b', '\x7d']
  | .record ((name, value) :: members) => do
    let first ← writeAt style (level + 1) value
    let rest ← writeMembers style (level + 1) members
    return '\x7b' :: style.lineBreak (level + 1) ++ writeString name ++ ':' :: ' ' :: first ++
      rest ++ style.lineBreak level ++ ['\x7d']

/-- The items of a list after the first one, each with the separator in front of it. -/
def writeItems (style : Style) (level : Nat) : List Value → Except Fault (List Char)
  | [] => .ok []
  | item :: items => do
    let first ← writeAt style level item
    let rest ← writeItems style level items
    return style.separator level ++ first ++ rest

/-- The members of a record after the first one, each with the separator in front of it. -/
def writeMembers (style : Style) (level : Nat) :
    List (String × Value) → Except Fault (List Char)
  | [] => .ok []
  | (name, value) :: members => do
    let first ← writeAt style level value
    let rest ← writeMembers style level members
    return style.separator level ++ writeString name ++ ':' :: ' ' :: first ++ rest

end

/-- A value in writing. -/
def write (style : Style) (value : Value) : Except Fault (List Char) := writeAt style 0 value

/-- A value on lines of its own, ended by a line feed. -/
def writeDocument (value : Value) : Except Fault String :=
  return String.ofList ((← write .indented value) ++ ['\n'])

end CueSheet.Json
