import CueSheet.Numeric.Entry
import CueSheet.Text.Spelling
import CueSheet.Value

/-!
# Reading JSON

A document is one value with blanks around it. Beside the values of strict JSON the three words for
the undefined number and the infinities are read. What is wrong with a text that is no document is
told with its place. Of two members of an object with one name the later value counts, at the place
of the earlier one. A document of too many levels is not read.
-/

namespace CueSheet.Json

/-- What a document of JSON holds; its strings may hold halves of characters. -/
abbrev Tree := Value Spelling

/-- The number of levels that are read. -/
def levelLimit : Nat := 990

/-- Why reading stopped. -/
inductive Stop where
  /-- The text is no JSON document; `rest` characters are left at the fault. -/
  | malformed (cause : JsonFault.Cause) (rest : Nat)
  /-- A number cannot be read, or the document has too many levels. -/
  | fault (fault : Fault)

/-- Stops at the start of a text. -/
def stop {α : Type} (cause : JsonFault.Cause) (rest : List Char) : Except Stop α :=
  .error (.malformed cause rest.length)

/-- The text without the blanks that JSON allows between its parts. -/
def skipBlanks (text : List Char) : List Char :=
  text.dropWhile fun c => c == ' ' || c == '\t' || c == '\n' || c == '\r'

/-- The value of a digit in base sixteen. -/
def hexValue? (c : Char) : Option Nat :=
  if '0' ≤ c ∧ c ≤ '9' then some (c.toNat - '0'.toNat)
  else if 'a' ≤ c ∧ c ≤ 'f' then some (c.toNat - 'a'.toNat + 10)
  else if 'A' ≤ c ∧ c ≤ 'F' then some (c.toNat - 'A'.toNat + 10)
  else none

/-- The number of the four digits after the `u` of a numbered escape, which starts the text. A
string goes on at least up to its closing quote, so a character has to follow the digits. -/
def readUnit (text : List Char) : Except Stop (Nat × List Char) :=
  match text with
  | _ :: a :: b :: c :: d :: rest =>
    match hexValue? a, hexValue? b, hexValue? c, hexValue? d with
    | some p, some q, some r, some s =>
      if rest.isEmpty then stop .numberedEscape text
      else .ok (((p * 16 + q) * 16 + r) * 16 + s, rest)
    | _, _, _, _ => stop .numberedEscape text
  | _ => stop .numberedEscape text

/-- Whether a number is the first half of a pair that stands for one character. -/
def isHighHalf (n : Nat) : Bool := 0xd800 ≤ n && n ≤ 0xdbff

/-- Whether a number is the second half of such a pair. -/
def isLowHalf (n : Nat) : Bool := 0xdc00 ≤ n && n ≤ 0xdfff

/-- The sign of a number: the character that it numbers, or a half without its partner. -/
def unitSign (n : Nat) : Sign :=
  if isHighHalf n || isLowHalf n then .half n else .char (Char.ofNat n)

/-- The sign of a numbered escape whose `u` starts the text, with the second half of a pair if there
is one. -/
def readNumbered (text : List Char) : Except Stop (Sign × List Char) := do
  let (high, rest) ← readUnit text
  match rest with
  | '\\' :: 'u' :: after =>
    if isHighHalf high && 5 ≤ after.length then
      let (low, beyond) ← readUnit ('u' :: after)
      if isLowHalf low then
        return (.char (Char.ofNat (0x10000 + (high - 0xd800) * 0x400 + (low - 0xdc00))), beyond)
      else return (unitSign high, rest)
    else return (unitSign high, rest)
  | _ => return (unitSign high, rest)

/-- The character of an escape of one letter. -/
def letterEscape? : Char → Option Char
  | '"' => some '"'
  | '\\' => some '\\'
  | '/' => some '/'
  | 'b' => some '\x08'
  | 'f' => some '\x0c'
  | 'n' => some '\n'
  | 'r' => some '\r'
  | 't' => some '\t'
  | _ => none

/-- The rest of a string up to its closing quote. `start` is the length of the text from the opening
quote on, and `fuel` bounds the number of signs. -/
def readSigns (start : Nat) : Nat → List Char → Except Stop (Spelling × List Char)
  | 0, _ => .error (.malformed .unterminated start)
  | fuel + 1, text =>
    match text with
    | [] => .error (.malformed .unterminated start)
    | '"' :: rest => .ok ([], rest)
    | '\\' :: rest =>
      match rest with
      | [] => .error (.malformed .unterminated start)
      | 'u' :: _ => do
        let (sign, after) ← readNumbered rest
        let (more, left) ← readSigns start fuel after
        return (sign :: more, left)
      | c :: after =>
        match letterEscape? c with
        | none => stop .escape text
        | some escaped => do
          let (more, left) ← readSigns start fuel after
          return (.char escaped :: more, left)
    | c :: rest =>
      if c.toNat < 0x20 then stop .control text
      else do
        let (more, left) ← readSigns start fuel rest
        return (.char c :: more, left)

/-- A string, from the character after its opening quote on. -/
def readString (text : List Char) : Except Stop (Spelling × List Char) :=
  readSigns (text.length + 1) (text.length + 1) text

/-- The digits of ASCII at the start of a text, and the text after them. -/
def takeDigits (text : List Char) : List Nat × List Char := Entry.takeDigits text

/-- The fraction of a number: its digits, and the text after them. -/
def takeFraction : List Char → List Nat × List Char
  | '.' :: rest =>
    match takeDigits rest with
    | ([], _) => ([], '.' :: rest)
    | (digits, after) => (digits, after)
  | text => ([], text)

/-- The power of ten of a number, if there is one, and the text after it. -/
def takePower : List Char → Option Int × List Char
  | [] => (none, [])
  | c :: rest =>
    if c = 'e' ∨ c = 'E' then
      let (negative, unsigned) := Entry.takeSign rest
      match takeDigits unsigned with
      | ([], _) => (none, c :: rest)
      | (digits, after) =>
        let n : Int := Text.ofDigits digits
        (some (if negative then -n else n), after)
    else (none, c :: rest)

/-- The digits in front of the point: a zero alone, or digits that do not start with a zero. -/
def takeWhole (text : List Char) : List Nat × List Char :=
  match text with
  | '0' :: rest => ([0], rest)
  | text => takeDigits text

/-- A number, which starts the text. -/
def readNumber (text : List Char) : Except Stop (Number × List Char) := do
  let (negative, unsigned) := match text with
    | '-' :: rest => (true, rest)
    | text => (false, text)
  let (whole, rest) := takeWhole unsigned
  if whole.isEmpty then stop .value text
  let (fraction, rest) := takeFraction rest
  let (power?, rest) := takePower rest
  if fraction.isEmpty && power?.isNone then
    match readDigits whole with
    | .error fault => .error (.fault fault)
    | .ok n => return (.int (if negative then -(n : Int) else n), rest)
  else
    let x := Entry.scaled (whole ++ fraction) (power?.getD 0 - fraction.length)
    return (.real (if negative then x.neg else x), rest)

/-- The words that stand for values. -/
def words : List (List Char × Tree) := [
  ("null".toList, .null), ("true".toList, .number (.bool true)),
  ("false".toList, .number (.bool false)), ("NaN".toList, .number (.real .nan)),
  ("Infinity".toList, .number (.real (.infinite false))),
  ("-Infinity".toList, .number (.real (.infinite true)))]

/-- A word or a number, which starts the text. -/
def readPlain (text : List Char) : Except Stop (Tree × List Char) :=
  match words.find? fun word => word.1.isPrefixOf text with
  | some (word, value) => .ok (value, text.drop word.length)
  | none => do
    let (x, rest) ← readNumber text
    return (.number x, rest)

mutual

/-- A value at a level, which starts the text. -/
def readValue (level : Nat) : Nat → List Char → Except Stop (Tree × List Char)
  | 0, text => stop .value text
  | fuel + 1, text =>
    match text with
    | [] => stop .value text
    | '"' :: rest => do
      let (s, after) ← readString rest
      return (.text s, after)
    | c :: rest =>
      if c = '[' then
        if levelLimit ≤ level then .error (.fault (.tooDeep .list))
        else
          match skipBlanks rest with
          | ']' :: after => .ok (.list [], after)
          | items => do
            let (items, after) ← readItems (level + 1) fuel items
            return (.list items, after)
      else if c = '\x7b' then
        if levelLimit ≤ level then .error (.fault (.tooDeep .record))
        else
          match skipBlanks rest with
          | d :: after =>
            if d = '\x7d' then .ok (.record [], after)
            else do
              let (members, after) ← readMembers (level + 1) fuel [] (d :: after)
              return (.record members, after)
          | [] => stop .name []
      else readPlain text

/-- The items of a list up to its closing bracket. -/
def readItems (level : Nat) : Nat → List Char → Except Stop (List Tree × List Char)
  | 0, text => stop .value text
  | fuel + 1, text => do
    let (item, rest) ← readValue level fuel text
    match skipBlanks rest with
    | ']' :: after => return ([item], after)
    | ',' :: after =>
      let (items, left) ← readItems level fuel (skipBlanks after)
      return (item :: items, left)
    | rest => stop .comma rest

/-- The members of an object up to its closing bracket, added to those before them. -/
def readMembers (level : Nat) : Nat → List (Spelling × Tree) → List Char →
    Except Stop (List (Spelling × Tree) × List Char)
  | 0, _, text => stop .name text
  | fuel + 1, members, text =>
    match text with
    | '"' :: rest => do
      let (name, rest) ← readString rest
      match skipBlanks rest with
      | ':' :: rest =>
        let (value, rest) ← readValue level fuel (skipBlanks rest)
        let members := Value.setMember members name value
        match skipBlanks rest with
        | ',' :: rest => readMembers level fuel members (skipBlanks rest)
        | c :: rest =>
          if c = '\x7d' then return (members, rest) else stop .comma (c :: rest)
        | [] => stop .comma []
      | rest => stop .colon rest
    | _ => stop .name text

end

/-- The document that a text is. -/
def readAll (text : List Char) : Except Stop Tree := do
  if text.head? = some '\ufeff' then stop .byteOrderMark text
  -- Every two steps take at least one character.
  let (value, rest) ← readValue 0 (2 * text.length + 2) (skipBlanks text)
  match skipBlanks rest with
  | [] => return value
  | rest => stop .extra rest

/-- The place in a text at which the given number of characters are left. -/
def faultAt (cause : JsonFault.Cause) (text : List Char) (rest : Nat) : JsonFault :=
  let before := text.take (text.length - rest)
  { cause
    position := before.length
    line := before.count '\n' + 1
    column := (before.reverse.takeWhile (· != '\n')).length + 1 }

end CueSheet.Json
