import CueSheet.Text.Spelling

/-!
# Cue categories and namespaces

A category word in front of the name of a cue says what kind of thing the cue triggers. A namespace
is the set of names that a renderer knows. Names are compared without regard to letter case; a name
that is registered with categories is known to cues of these categories and to cues without one. A
registered name may hold halves of characters: it counts, and no cue has it.
-/

namespace CueSheet

open Text (lowered)

/-- The category words. -/
def categories : List String := ["sfx", "fx", "instrument", "ambience", "vocal", "music"]

/-- Whether a token is a category word in some letter case. -/
def isCategory (token : String) : Bool := categories.contains (lowered token)

/-- The cue names that are known, all in lower case. -/
structure Namespace where
  /-- Names known to every cue, each once. -/
  plain : List Spelling
  /-- Names with the categories that they are known to, each name once. -/
  categorized : List (Spelling × List Spelling)
deriving DecidableEq

namespace Namespace

/-- A list with an element at its end, unless the element is in it already. -/
def insertOnce (names : List Spelling) (name : Spelling) : List Spelling :=
  if names.contains name then names else names ++ [name]

/-- Registers a name with a category. -/
def register (entries : List (Spelling × List Spelling)) (name category : Spelling) :
    List (Spelling × List Spelling) :=
  if (entries.lookup name).isSome then
    entries.map fun entry =>
      if entry.1 = name then (name, insertOnce entry.2 category) else entry
  else entries ++ [(name, [category])]

/-- The namespace of the spellings of plain names and of names with a category. -/
def ofSpellings (names : List Spelling) (categorized : List (Spelling × Spelling)) :
    Namespace where
  plain := (names.map Spelling.lower).foldl insertOnce []
  categorized :=
    categorized.foldl (fun entries (name, category) =>
      register entries name.lower category.lower) []

/-- The namespace of plain names and of names with a category. -/
def ofNames (names : List String) (categorized : List (String × String)) : Namespace :=
  ofSpellings (names.map Spelling.ofString)
    (categorized.map fun (name, category) => (.ofString name, .ofString category))

/-- The number of registered names; a name that is plain and has categories counts twice. -/
def size (ns : Namespace) : Nat := ns.plain.length + ns.categorized.length

/-- What a name is looked up as. -/
def key (name : String) : Spelling := .ofString (lowered name)

/-- Whether a name is known to cues of a category, or to cues without one. -/
def isKnown (ns : Namespace) (name : String) (category : Option String) : Bool :=
  ns.plain.contains (key name) ||
    match ns.categorized.lookup (key name) with
    | none => false
    | some known => category.all fun c => known.contains (key c)

/-- The namespace with more plain names. -/
def withNames (ns : Namespace) (names : List String) : Namespace where
  plain := ((ns.plain ++ names.map key).map Spelling.lower).foldl insertOnce []
  categorized := ns.categorized

end Namespace

end CueSheet
