import CueSheet.Command.Run

/-!
# The program

Reads what a command needs from the environment and the file system, runs the command, and writes
what it leaves behind.
-/

namespace CueSheet.Main

/-- The variables that settings are read from. -/
def variableNames : List String :=
  ["MMSL_STRICT", "MMSL_DEFAULT_BPM", "MMSL_MAX_LINES", "MMSL_MAX_REPEAT", "MMSL_CUE_CATALOG"]

/-- The environment, as far as settings are read from it. -/
def readEnvironment : IO Environment := do
  let values ← variableNames.mapM fun name => do
    return (← IO.getEnv name).map fun value => (name, value)
  return values.filterMap id

/-- What the system says in an error about the file at a path. A directory is noticed as such before
anything is read of it. -/
def systemFault (path : String) : IO.Error → SystemFault
  | .noFileOrDirectory .. => .missing path
  | .alreadyExists _ code words | .interrupted _ code words | .invalidArgument _ code words
  | .permissionDenied _ code words | .resourceExhausted _ code words
  | .inappropriateType _ code words | .noSuchThing _ code words =>
    ⟨code.toNat, words, some path⟩
  | .otherError code words | .resourceBusy code words | .resourceVanished code words
  | .unsupportedOperation code words | .hardwareFault code words
  | .unsatisfiedConstraints code words | .illegalOperation code words
  | .protocolError code words | .timeExpired code words => ⟨code.toNat, words, none⟩
  | error => ⟨0, toString error, none⟩

/-- The bytes of a file, or why there are none. -/
def readBytes (path : String) : IO (Except SystemFault (List UInt8)) := do
  try
    return .ok (← IO.FS.readBinFile path).toList
  catch error =>
    return .error (systemFault path error)

/-- The paths that a command reads. -/
def pathsOf (validate : Config.Validation) (environment : Environment)
    (invocation : Command.Invocation) : List String :=
  let catalog :=
    match Config.fromEnvironment validate environment invocation.overrides with
    | .ok config => config.catalogPath.toList
    | .error _ => []
  let file := if invocation.file = "-" then [] else [Path.simplify invocation.file]
  file ++ catalog

/-- What a command is run in. Files that it does not read are not there. -/
def readWorld (validate : Config.Validation) (invocation : Command.Invocation) :
    IO Command.World := do
  let environment ← readEnvironment
  let contents ← (pathsOf validate environment invocation).mapM fun path => do
    return (path, ← readBytes path)
  let stdin ←
    if invocation.file = "-" then (do (← IO.getStdin).readBinToEnd) else pure ByteArray.empty
  return ⟨fun path => (contents.lookup path).getD (.error (.missing path)), stdin.toList,
    environment⟩

/-- Runs a command with the given libraries, and gives its exit code. -/
def program (libraries : Command.Libraries) (invocation : Command.Invocation) : IO UInt32 := do
  let world ← readWorld libraries.validate invocation
  let ending := Command.run libraries world invocation
  let stderr ← IO.getStderr
  for line in ending.stderr do
    stderr.putStrLn line
  if let some fault := ending.fault then
    stderr.putStrLn fault.message
  (← IO.getStdout).putStr ending.stdout
  return ending.exitCode.toUInt32

end CueSheet.Main
