import CueSheet.Fault
import CueSheet.Input.Path
import CueSheet.Text.Lines
import CueSheet.Text.Utf8

/-!
# Inputs

A document or a catalog is read from a path, as the bytes of a file. Its text is the characters that
the bytes encode, with every line end read as a line feed. A folder holds files under their paths,
and its directories are those that the paths go through. Nothing is known of what lies above it or
elsewhere, but for the directories that a path meets on its way up.
-/

namespace CueSheet

/-- Where files are read from: the bytes at a path in simplest form, or why there are none. -/
abbrev Files := String → Except SystemFault (List UInt8)

/-- A place that a path leads to. -/
structure Place where
  /-- Whether the place is found from the root rather than from the current directory. -/
  isRooted : Bool
  /-- The steps to the place; upward steps come first, and only without a root. -/
  steps : List String
deriving DecidableEq

namespace Place

/-- The place where a path starts. -/
def start (path : String) : Place := ⟨!(Path.root path).isEmpty, []⟩

/-- The place one step upwards; the root is above itself. -/
def parent (place : Place) : Place :=
  match place.steps.getLast? with
  | none => if place.isRooted then place else { place with steps := [".."] }
  | some ".." => { place with steps := place.steps ++ [".."] }
  | some _ => { place with steps := place.steps.dropLast }

/-- The place of a name in a directory. -/
def child (place : Place) (name : String) : Place := { place with steps := place.steps ++ [name] }

/-- Whether a place is a directory on the way to another one. -/
def isAbove (place below : Place) : Bool :=
  place.isRooted == below.isRooted && place.steps.isPrefixOf below.steps && place != below

end Place

/-- Files under their paths. -/
abbrev Folder := List (String × List UInt8)

namespace Folder

/-- The bytes found by following the steps of a path from a directory. -/
def follow (files : List (Place × List UInt8)) (path : String) (place : Place) :
    List String → Except SystemFault (List UInt8)
  | [] => .error (.directory path)
  | step :: steps =>
    if step = ".." then follow files path place.parent steps
    else if Path.stepLimit < step.utf8ByteSize then .error (.tooLong path)
    else
      let next := place.child step
      match files.lookup next with
      | some bytes => if steps.isEmpty then .ok bytes else .error (.notDirectory path)
      | none =>
        if files.any fun file => next.isAbove file.1 then follow files path next steps
        else .error (.missing path)

/-- The bytes at a path, or why there are none. -/
def read (folder : Folder) (path : String) : Except SystemFault (List UInt8) :=
  if Path.limit < path.utf8ByteSize then .error (.tooLong path)
  else
    let files := folder.map fun (name, bytes) =>
      ({ Place.start name with steps := Path.steps name }, bytes)
    follow files path (Place.start path) (Path.steps path)

end Folder

/-- The text of bytes, with every line end read as a line feed. -/
def textOfBytes (bytes : List UInt8) : Except EncodingFault (List Char) :=
  (Text.decode bytes).map Text.unifyLineEnds

/-- The text at a path; a fault names the source as it is given. No path holds a null character. -/
def readText (files : Files) (source : String) : Except Fault (List Char) :=
  if source.toList.contains '\x00' then .error .nullInPath
  else
    match files (Path.simplify source) with
    | .error fault => .error (.input source (.system fault))
    | .ok bytes =>
      match textOfBytes bytes with
      | .error fault => .error (.input source (.encoding fault))
      | .ok text => .ok text

end CueSheet
