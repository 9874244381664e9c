import CueSheet.Config
import CueSheet.Input.Folder
import CueSheet.Json.Reader
import CueSheet.Namespace
import CueSheet.Value.Written

/-!
# Catalogs of cues

A catalog is a JSON document that lists cue names: a plain list of names, or an object whose member
`instruments` lists objects with an `id` and, if the name is known to one category only, a
`category`. Entries that are no strings are names by the way they are written.
-/

namespace CueSheet.Catalog

open Json (Tree)

/-- A document as the name of a cue: a string is the name itself. -/
def toName : Tree → Except Fault Spelling
  | .text name => .ok name
  | document => return .ofChars (← document.write Spelling.quote)

/-- Whether a document counts as no entry: nothing, falsehood, zero, or something empty. -/
def isVoid : Tree → Bool
  | .null => true
  | .number x => x.eq (.int 0)
  | .text s => s.isEmpty
  | .list items => items.isEmpty
  | .record members => members.isEmpty

/-- The name of an entry of an instrument catalog with its category, if the entry has a name. -/
def entry? (document : Tree) : Except Fault (Option (Spelling × Option Spelling)) := do
  let id := document.get (.ofString "id")
  let category := document.get (.ofString "category")
  if isVoid id then return none
  else if isVoid category then return some (← toName id, none)
  else return some (← toName id, some (← toName category))

/-- The names of an instrument catalog. -/
def ofInstruments (instruments : List Tree) : Except Fault Namespace := do
  let entries := (← instruments.mapM entry?).filterMap id
  let plain := entries.filterMap fun (name, category) =>
    match category with
    | none => some name
    | some _ => none
  let categorized := entries.filterMap fun (name, category) => category.map fun c => (name, c)
  return .ofSpellings plain categorized

/-- The namespace of a catalog found at a path. -/
def ofTree (path : String) : Tree → Except Fault Namespace
  | .list names => return .ofSpellings (← names.mapM toName) []
  | document =>
    match document.get (.ofString "instruments") with
    | .list instruments => ofInstruments instruments
    | _ => throw (.input path .notCatalog)

/-- The namespace of the catalog at a path. -/
def load (files : Files) (path : String) : Except Fault Namespace := do
  let text ← readText files path
  match Json.readAll text with
  | .ok document => ofTree path document
  | .error (.fault fault) => throw fault
  | .error (.malformed cause rest) => throw (.input path (.json (Json.faultAt cause text rest)))

end CueSheet.Catalog

namespace CueSheet

/-- The cue names that the settings make known; none if names are not checked. -/
def Config.namespace? (files : Files) (config : Config) : Except Fault (Option Namespace) := do
  match config.catalogPath with
  | none => return config.knownCues.map fun names => .ofNames names []
  | some path =>
    let catalog ← Catalog.load files path
    let names := config.knownCues.getD []
    return some (if names.isEmpty then catalog else catalog.withNames names)

end CueSheet
