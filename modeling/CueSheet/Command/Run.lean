import CueSheet.Command.Invocation
import CueSheet.Command.Log
import CueSheet.Config.Environment

/-!
# Commands

A command writes its result to the standard output and nothing else there. Diagnostics go to the
standard error as JSON, each on a line. A command ends with one if its input cannot be read or a
fault stops it, with two if the settings or the document are not in order, and with zero otherwise;
only then is there output. A standard input that is no text is a fault, while a file that is none is
an input that cannot be read.

How settings are made of fields and how texts are printed is left to libraries. They are a parameter
of a command.
-/

namespace CueSheet

/-- A diagnostic as a record. -/
def Diagnostic.toValue (diagnostic : Diagnostic) : Value := .record [
  ("category", .text diagnostic.problem.category.name),
  ("severity", .text diagnostic.severity.name),
  ("message", .text diagnostic.problem.message),
  ("line", .ofInt? diagnostic.line),
  ("field", .ofText? diagnostic.problem.field),
  ("source", .ofText? diagnostic.source)]

namespace Command

/-- What a command takes from libraries. -/
structure Libraries where
  /-- What makes settings of named fields. -/
  validate : Config.Validation
  /-- What an output gets of a text that is printed to it. -/
  echo : String → String

/-- What a command is run in: files, the standard input and the environment. -/
structure World where
  /-- Where files are read from. -/
  files : Files
  /-- The bytes of the standard input. -/
  stdin : List UInt8
  /-- The variables of the environment. -/
  environment : Environment

/-- What a command leaves behind. -/
structure Ending where
  /-- The exit code. -/
  exitCode : Nat
  /-- What is written to the standard output. -/
  stdout : String
  /-- The lines that are written to the standard error. -/
  stderr : List String
  /-- The fault that has stopped the command, if there is one. -/
  fault : Option Fault
deriving DecidableEq

/-- A diagnostic on a line of its own. A line number too long to be written is a fault. -/
def diagnosticLine (diagnostic : Diagnostic) : Except Fault String :=
  return String.ofList (← Json.write .oneLine diagnostic.toValue)

/-- The lines of diagnostics, up to the first one that cannot be written. -/
def diagnosticLines : List Diagnostic → List String × Option Fault
  | [] => ([], none)
  | diagnostic :: diagnostics =>
    match diagnosticLine diagnostic with
    | .error fault => ([], some fault)
    | .ok line =>
      let (lines, fault) := diagnosticLines diagnostics
      (line :: lines, fault)

/-- The name of the document and its text. -/
def readDocument (world : World) (file : String) : Except Fault (String × List Char) :=
  if file = "-" then
    match textOfBytes world.stdin with
    | .ok text => return ("<stdin>", text)
    | .error fault => throw (.undecodable fault)
  else return (file, ← readText world.files file)

/-- What a command prints of an outcome. -/
def output (invocation : Invocation) (outcome : Outcome) : Except Fault String :=
  match invocation.verb with
  | .parse => outcome.irText
  | .schedule => outcome.eventsText (invocation.fps.map fun x => .number (.real x))
  | .format => (outcome.render?).getD (throw (.noSong outcome.source))

variable (libraries : Libraries)

/-- Ends with a diagnostic that no document has. -/
def endWith (exitCode : Nat) (log : List String) (diagnostic : Diagnostic) : Ending :=
  match diagnosticLine diagnostic with
  | .ok line => ⟨exitCode, "", log ++ [libraries.echo line], none⟩
  | .error fault => ⟨1, "", log, some fault⟩

/-- Ends where a fault stops the command: with a diagnostic if an input cannot be read. -/
def stop (log : List String) (fault : Fault) : Ending :=
  match fault with
  | .input source _ =>
    endWith libraries 1 log ⟨.unreadable fault.message, .fatal, none, some source⟩
  | fault => ⟨1, "", log, some fault⟩

/-- Ends with the result of an outcome. -/
def conclude (invocation : Invocation) (log : List String) (outcome : Outcome) : Ending :=
  let (lines, fault) := diagnosticLines outcome.diagnostics
  let log := log ++ lines.map libraries.echo
  match fault with
  | some fault => ⟨1, "", log, some fault⟩
  | none =>
    if !outcome.isOk then ⟨2, "", log, none⟩
    else
      let timing :=
        if invocation.verbose && invocation.verb = .schedule then
          (Log.ofEvents outcome).flatMap LogLine.write
        else []
      match output invocation outcome with
      | .ok text => ⟨0, libraries.echo text, log ++ timing, none⟩
      | .error fault => ⟨1, "", log ++ timing, some fault⟩

/-- Runs a command with its settings. -/
def runWith (world : World) (invocation : Invocation) (config : Config) : Ending :=
  match readDocument world invocation.file with
  | .error fault => stop libraries [] fault
  | .ok (source, text) =>
    let log :=
      if invocation.verbose then
        (Log.ofProcess world.files config source text).flatMap LogLine.write
      else []
    match process world.files config none source text with
    | .error fault => stop libraries log fault
    | .ok outcome => conclude libraries invocation log outcome

/-- Runs a command. -/
def run (world : World) (invocation : Invocation) : Ending :=
  match Config.fromEnvironment libraries.validate world.environment invocation.overrides with
  | .ok config => runWith libraries world invocation config
  | .error fault =>
    endWith libraries 2 []
      ⟨.configuration fault.message, .fatal, none, some "environment"⟩

end Command

end CueSheet
