import CueSheet.Text.Blank

/-!
# Paths

A path is a list of steps with slashes between them, from the current directory or from a root. In
its simplest form it has no empty steps and none that stay in place. Steps upwards remain, because
where they lead depends on what is at the path before them.
-/

namespace CueSheet.Path

open Text (pieces)

/-- The steps of a path, without empty ones and those that stay in place. -/
def steps (path : String) : List String :=
  (((pieces (· == '/') path.toList).map String.ofList).filter fun step =>
    !step.isEmpty && step != ".")

/-- What a path starts with if it does not start at the current directory. -/
def root (path : String) : String :=
  match path.toList with
  | '/' :: '/' :: c :: _ => if c = '/' then "/" else "//"
  | ['/', '/'] => "//"
  | '/' :: _ => "/"
  | _ => ""

/-- A path in simplest form. -/
def simplify (path : String) : String :=
  let simple := root path ++ "/".intercalate (steps path)
  if simple.isEmpty then "." else simple

/-- The number of bytes that a step of a path may have. -/
def stepLimit : Nat := 255

/-- The number of bytes that a path may have. -/
def limit : Nat := 4095

end CueSheet.Path
