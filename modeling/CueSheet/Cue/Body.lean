import CueSheet.Cue.Parameter
import CueSheet.Diagnostic
import CueSheet.Namespace

/-!
# The body of a cue

The first token of a cue is its name, unless it is a category word: then the next token is the name,
and a category word that stands alone is a category without a name. A first token with an equals
sign is a parameter already, and the cue has no name. Every later token is a parameter if it has a
key and does not start with a quote, and an argument otherwise. Of parameters with one stored key
the first one counts.
-/

namespace CueSheet

open Text (lower)

/-- What the body of a cue says, and the problems found in it. -/
structure CueBody where
  /-- The cue. -/
  cue : Cue
  /-- The problems in order. -/
  problems : List Problem
deriving DecidableEq

namespace CueBody

/-- The category, the name and the other tokens of a cue. -/
structure Head where
  /-- The category in lower case. -/
  category : Option String
  /-- The name; empty if there is none. -/
  name : String
  /-- The tokens after the head. -/
  rest : List (List Char)
deriving DecidableEq

/-- Whether a token could be a parameter. -/
def hasEquals (token : List Char) : Bool := token.contains '='

/-- A token as a word: without its quotes. -/
def word (token : List Char) : String := String.ofList (Token.unquoted token)

/-- Splits the head off the tokens of a cue. -/
def head : List (List Char) → Head
  | [] => ⟨none, "", []⟩
  | first :: rest =>
    if hasEquals first then ⟨none, "", first :: rest⟩
    else if isCategory (String.ofList first) then
      let category := some (String.ofList (lower first))
      match rest with
      | [] => ⟨category, "", []⟩
      | second :: others =>
        if hasEquals second then ⟨none, word first, rest⟩ else ⟨category, word second, others⟩
    else ⟨none, word first, rest⟩

/-- What the tokens after the head say. -/
structure Details where
  /-- The parameters in order of first occurrence. -/
  params : Params
  /-- The arguments in order. -/
  args : List String
  /-- The problems in order. -/
  problems : List Problem
deriving DecidableEq

/-- Nothing. -/
def Details.empty : Details := ⟨[], [], []⟩

/-- Adds what one token says. -/
def Details.add (ρ : Rounding) (bpm beatsPerBar : Value) (details : Details)
    (token : List Char) : Except Fault Details := do
  let key := lower (token.takeWhile (· != '='))
  let isQuoted := token.head? == some '"'
  -- A token that starts with a quote is an argument even if an equals sign is in it.
  if isQuoted || !hasEquals token || key.isEmpty then
    let isKeyless := hasEquals token && key.isEmpty && !isQuoted
    return { details with
      args := details.args ++ [word token]
      problems := details.problems ++
        if isKeyless then [.parameterWithoutKey (String.ofList token)] else [] }
  else
    let key := String.ofList key
    let raw := (token.dropWhile (· != '=')).drop 1
    let (stored, value) ← readParameter ρ bpm beatsPerBar key raw
    -- Keys that store under one name repeat each other.
    if (details.params.lookup stored).isSome then
      return { details with problems := details.problems ++ [.duplicateParameter key] }
    else return { details with params := details.params ++ [(stored, value)] }

/-- Reads the body of a cue, with times converted at a tempo and a number of beats in a bar. -/
def read (ρ : Rounding) (bpm beatsPerBar : Value) (body : List Char) : Except Fault CueBody := do
  let head := head (Token.split body)
  let details ← head.rest.foldlM (Details.add ρ bpm beatsPerBar) Details.empty
  return {
    cue := ⟨head.name, head.category, details.params, details.args⟩
    problems := (if Token.hasLoneQuote body then [.unterminatedQuote] else []) ++ details.problems }

end CueBody

end CueSheet
