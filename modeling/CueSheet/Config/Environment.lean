import CueSheet.Config
import CueSheet.Input.Path
import CueSheet.Numeric.Entry
import CueSheet.Value

/-!
# Settings from the environment

Five variables of the environment give fields of the settings, and fields given elsewhere win over
them. The default tempo is read as a number even if it is empty, while the other variables count
only if they are not. A variable that is no number is a fault before the fields are looked at. What
makes settings of fields is left open: it is a parameter, which refuses fields in words of its own.
-/

namespace CueSheet

open Text (quote lowered)

/-- The variables of an environment. -/
abbrev Environment := List (String × String)

/-- What makes settings of named fields, of which the first one of a name counts, or says why they
cannot be used. -/
abbrev Config.Validation := List (String × Value) → Except String Config

/-- Why there are no settings. -/
inductive ConfigFault where
  /-- A variable is no whole number. -/
  | notWhole (text : String)
  /-- A number cannot be read. -/
  | unreadable (fault : Fault)
  /-- The fields cannot be used; `reason` tells why. -/
  | invalid (reason : String)
deriving DecidableEq

/-- A fault of the settings in words. A text that is no whole number is quoted up to its
two-hundredth character. -/
def ConfigFault.message : ConfigFault → String
  | notWhole text =>
    let shown := String.ofList ((quote text.toList).take 200)
    s!"invalid literal for int() with base 10: {shown}"
  | unreadable fault => fault.message
  | invalid reason => reason

namespace Config

/-- The whole number of a variable. -/
def environmentInt (text : String) : Except ConfigFault Value :=
  match Entry.whole? text.toList with
  | none => .error (.notWhole text)
  | some (.error fault) => .error (.unreadable fault)
  | some (.ok n) => .ok (.int n)

/-- The real number of a variable. -/
def environmentReal (text : String) : Except ConfigFault Value :=
  match Entry.real? text.toList with
  | none => .error (.unreadable (.notReal text))
  | some x => .ok (.number (.real x))

/-- The field of the variable of a name, unless the variable is missing or empty. -/
def environmentField (environment : Environment) (name field : String)
    (read : String → Except ConfigFault Value) : Except ConfigFault (List (String × Value)) :=
  match environment.lookup name with
  | none | some "" => return []
  | some text => return [(field, ← read text)]

/-- The fields that an environment gives. -/
def environmentFields (environment : Environment) : Except ConfigFault (List (String × Value)) := do
  let strict := lowered ((environment.lookup "MMSL_STRICT").getD "false") = "true"
  let defaultBpm ← environmentReal ((environment.lookup "MMSL_DEFAULT_BPM").getD "120")
  let maxLines ← environmentField environment "MMSL_MAX_LINES" "max_lines" environmentInt
  let maxRepeat ← environmentField environment "MMSL_MAX_REPEAT" "max_repeat" environmentInt
  let catalog ← environmentField environment "MMSL_CUE_CATALOG" "catalog_path"
    fun text => return .text (Path.simplify text)
  return [("strict", .number (.bool strict)), ("default_bpm", defaultBpm)] ++ maxLines ++
    maxRepeat ++ catalog

/-- Whether a field says anything. -/
def isGiven : String × Value → Bool
  | (_, .null) => false
  | _ => true

/-- The fields of an environment behind those that are given elsewhere and are not null. -/
def givenFields (environment : Environment) (overrides : List (String × Value)) :
    Except ConfigFault (List (String × Value)) :=
  return overrides.filter isGiven ++ (← environmentFields environment)

/-- The settings of an environment, where fields given elsewhere win unless they are null. -/
def fromEnvironment (validate : Validation) (environment : Environment)
    (overrides : List (String × Value)) : Except ConfigFault Config := do
  match validate (← givenFields environment overrides) with
  | .ok config => return config
  | .error reason => throw (.invalid reason)

end Config

end CueSheet
