import CueSheet.Config
import CueSheet.Input.Path
import CueSheet.Value

/-!
# Invocations

The program has three commands, each for one document. How a command line is taken apart is left
open: a command starts from the values of its argument and of its options, each of the type that the
option is declared with. Options that say nothing leave the settings to the environment.
-/

namespace CueSheet.Command

/-- What a command does with a document. -/
inductive Verb where
  /-- Print the canonical form. -/
  | parse
  /-- Print the events. -/
  | schedule
  /-- Print the document in its regular form. -/
  | format
deriving DecidableEq

/-- What a command is called with. -/
structure Invocation where
  /-- Whether the steps of the processing are logged. -/
  verbose : Bool
  /-- What is done. -/
  verb : Verb
  /-- The document; a hyphen stands for the standard input. -/
  file : String
  /-- Whether checks are to be strict. -/
  strict : Bool
  /-- The tempo. -/
  bpm : Option Extended
  /-- The number of beats in a bar. -/
  beatsPerBar : Option Count
  /-- The path of a catalog. -/
  catalogPath : Option String
  /-- The greatest number of lines. -/
  maxLines : Option Count
  /-- The greatest number of repeats of a cue. -/
  maxRepeat : Option Count
  /-- The frame rate for events. -/
  fps : Option Extended
deriving DecidableEq

namespace Invocation

/-- The field of a count; null if the option is not given. -/
def ofCount? (count : Option Count) : Value := .ofInt? (count.map fun count => (count.val : Int))

/-- The fields of the settings that the options give. A flag that is not set says nothing. -/
def overrides (invocation : Invocation) : List (String × Value) := [
  ("strict", if invocation.strict then .number (.bool true) else .null),
  ("bpm", (invocation.bpm.map fun x => .number (.real x)).getD .null),
  ("beats_per_bar", ofCount? invocation.beatsPerBar),
  ("catalog_path", .ofText? (invocation.catalogPath.map Path.simplify)),
  ("max_lines", ofCount? invocation.maxLines),
  ("max_repeat", ofCount? invocation.maxRepeat)]

end Invocation

end CueSheet.Command
