import CueSheet.Text.Quoted
import CueSheet.Value

/-!
# Faults

A fault is the reason why a computation has no result. Each cause is a constructor that carries what
its message tells, and the words of a cause are in one function. Problems of a document are no
faults: they are collected as diagnostics, and the computation goes on.
-/

namespace CueSheet

open Text (quoted)

/-- Why a list of tempo segments is no tempo map. -/
inductive Conflict where
  /-- There is no segment. -/
  | noSegments
  /-- A tempo is not a finite number above zero. -/
  | tempo (shown : String)
  /-- A start is infinite or undefined. -/
  | start (shown : String)
  /-- The first segment starts elsewhere than at beat zero. -/
  | firstStart
  /-- An added segment starts before beat zero. -/
  | beforeStart
  /-- Two segments start at one beat. -/
  | sameStart (shown : String)
  /-- A segment starts before the one in front of it. -/
  | order (shown : String)
deriving DecidableEq

/-- The reason of a conflict in words. -/
def Conflict.reason : Conflict → String
  | noSegments => "tempo map has no segments"
  | tempo shown => s!"bpm must be a finite number > 0, got {shown}"
  | start shown => s!"start beat must be finite, got {shown}"
  | firstStart => "first segment must start at beat 0"
  | beforeStart => "segments cannot start before beat 0"
  | sameStart shown => s!"two segments start at beat {shown}"
  | order shown => s!"segment at beat {shown} is out of order"

/-- What is wrong with bytes that begin no character. -/
inductive EncodingFault.Cause where
  /-- No character starts with the byte. -/
  | start
  /-- The byte after them does not continue the character. -/
  | continuation
  /-- The text ends within the character. -/
  | ending
deriving DecidableEq

/-- The first bytes of a content that begin no character. -/
structure EncodingFault where
  /-- What is wrong with them. -/
  cause : EncodingFault.Cause
  /-- Value of the first of the bytes. -/
  byte : Nat
  /-- Number of bytes before them. -/
  position : Nat
  /-- How many they are. -/
  count : Nat
deriving DecidableEq

/-- An encoding fault in words. -/
def EncodingFault.message (fault : EncodingFault) : String :=
  let place :=
    if fault.count = 1 then
      s!"byte 0x{String.ofList (Text.hex 2 fault.byte)} in position {fault.position}"
    else
      s!"bytes in position {fault.position}-{fault.position + fault.count - 1}"
  let cause :=
    match fault.cause with
    | .start => "invalid start byte"
    | .continuation => "invalid continuation byte"
    | .ending => "unexpected end of data"
  s!"'utf-8' codec can't decode {place}: {cause}"

/-- What is wrong with a text that is no JSON document. -/
inductive JsonFault.Cause where
  /-- A byte order mark stands at the start. -/
  | byteOrderMark
  /-- A value is missing. -/
  | value
  /-- A comma is missing. -/
  | comma
  /-- A colon is missing. -/
  | colon
  /-- The name of a member is missing. -/
  | name
  /-- Text follows the document. -/
  | extra
  /-- A string has no end. -/
  | unterminated
  /-- A string holds a control character. -/
  | control
  /-- An escape does not exist. -/
  | escape
  /-- A numbered escape is not made of four digits of base sixteen. -/
  | numberedEscape
deriving DecidableEq

/-- Why a text is no JSON document, and where. -/
structure JsonFault where
  /-- What is wrong. -/
  cause : JsonFault.Cause
  /-- Number of characters before the fault. -/
  position : Nat
  /-- Line of the fault, counted from one. -/
  line : Nat
  /-- Column of the fault, counted from one. -/
  column : Nat
deriving DecidableEq

/-- A JSON fault in words. -/
def JsonFault.message (fault : JsonFault) : String :=
  let cause :=
    match fault.cause with
    | .byteOrderMark => "Unexpected UTF-8 BOM (decode using utf-8-sig)"
    | .value => "Expecting value"
    | .comma => "Expecting ',' delimiter"
    | .colon => "Expecting ':' delimiter"
    | .name => "Expecting property name enclosed in double quotes"
    | .extra => "Extra data"
    | .unterminated => "Unterminated string starting at"
    | .control => "Invalid control character at"
    | .escape => "Invalid \\escape"
    | .numberedEscape => "Invalid \\uXXXX escape"
  s!"{cause}: line {fault.line} column {fault.column} (char {fault.position})"

/-- Why the system does not give the content of a file. -/
structure SystemFault where
  /-- The number that the system has for the fault. -/
  code : Nat
  /-- What the system says about it. -/
  words : String
  /-- The path of the file; none if the fault comes up once the file has been found. -/
  path : Option String
deriving DecidableEq

namespace SystemFault

/-- There is nothing at the path. -/
def missing (path : String) : SystemFault := ⟨2, "No such file or directory", some path⟩

/-- The path goes on through something that is no directory. -/
def notDirectory (path : String) : SystemFault := ⟨20, "Not a directory", some path⟩

/-- The path names a directory. -/
def directory (path : String) : SystemFault := ⟨21, "Is a directory", some path⟩

/-- The path or one of its steps is too long. -/
def tooLong (path : String) : SystemFault := ⟨36, "File name too long", some path⟩

/-- A fault of the system in words. -/
def message (fault : SystemFault) : String :=
  let place :=
    match fault.path with
    | some path => s!": {quoted path}"
    | none => ""
  s!"[Errno {fault.code}] {fault.words}{place}"

end SystemFault

/-- Why an input has no content. -/
inductive InputFault where
  /-- The system does not give the content. -/
  | system (fault : SystemFault)
  /-- The content is no text. -/
  | encoding (fault : EncodingFault)
  /-- The content is no JSON document. -/
  | json (fault : JsonFault)
  /-- The document is no catalog of cues. -/
  | notCatalog
deriving DecidableEq

/-- The reason of an input fault in words. -/
def InputFault.reason : InputFault → String
  | system fault => fault.message
  | encoding fault => fault.message
  | json fault => fault.message
  | notCatalog => "expected a list of cue names or an instrument catalog"

/-- Why a computation has no result. -/
inductive Fault where
  /-- A whole number lies beyond the real numbers that are kept. -/
  | wholeTooLarge
  /-- A quotient of whole numbers lies beyond the real numbers that are kept. -/
  | quotientTooLarge
  /-- A whole number was divided by zero. -/
  | wholeDividedByZero
  /-- A real number was divided by zero. -/
  | realDividedByZero
  /-- An infinity has no whole number. -/
  | infinityToWhole
  /-- The undefined value has no whole number. -/
  | nanToWhole
  /-- A numeral has more digits than are read. -/
  | numeralTooLong (digits : Nat)
  /-- A whole number has more digits than are written. -/
  | wholeTooLong
  /-- A number cannot be held by strict JSON. -/
  | notStrict (shown : String)
  /-- A value that is no quantity was compared with a whole number. -/
  | notOrdered (comparison : Char) (kind : Kind)
  /-- A value that is no quantity was asked whether it is finite. -/
  | notNumeric (kind : Kind)
  /-- An operation has no meaning for two values. -/
  | unsupported (operator : Char) (left right : Kind)
  /-- A text or a list was multiplied by something else than a whole number. -/
  | notRepeatable (kind : Kind)
  /-- A text or a list was multiplied by a whole number of more than 64 bits. -/
  | repeatsTooMany
  /-- A text or a list grew too long by being multiplied. -/
  | repeatsTooLong
  /-- A real number was added to a text or a list. -/
  | notJoined (kind : Kind)
  /-- A value is neither a quantity nor a text that could be one. -/
  | notConvertible (kind : Kind)
  /-- A text is no real number. -/
  | notReal (text : String)
  /-- A value that is no text was used as one. -/
  | notText (kind : Kind)
  /-- A value was asked for something that values of its kind do not have. -/
  | noProperty (kind : Kind) (property : String)
  /-- A tempo is not above zero. -/
  | tempoNotPositive (shown : String)
  /-- A unit of duration does not exist. -/
  | unknownUnit (unit : String)
  /-- A text is no duration. -/
  | notDuration (text : String)
  /-- A beat lies before the start. -/
  | beatBeforeStart (shown : String)
  /-- A time lies before the start. -/
  | secondsBeforeStart (shown : String)
  /-- A text stands where an item belongs. -/
  | notItem (text : String)
  /-- A list of segments is no tempo map; the start of the segment at fault is given, if any. -/
  | conflict (why : Conflict) (start : Option Value)
  /-- A path holds the null character. -/
  | nullInPath
  /-- The bytes of the standard input are no text. -/
  | undecodable (fault : EncodingFault)
  /-- A JSON document has more levels than are read; the innermost one is a list or a record. -/
  | tooDeep (kind : Kind)
  /-- A document or a catalog has no content. -/
  | input (source : String) (fault : InputFault)
  /-- A fatal diagnostic left a document without its canonical form. -/
  | noIr (source : String)
  /-- A fatal diagnostic left a document without a song. -/
  | noSong (source : String)
  /-- Documents are to be processed by nobody. -/
  | noWorkers
deriving DecidableEq

/-- A fault in words. -/
def Fault.message : Fault → String
  | wholeTooLarge => "int too large to convert to float"
  | quotientTooLarge => "integer division result too large for a float"
  | wholeDividedByZero => "division by zero"
  | realDividedByZero => "float division by zero"
  | infinityToWhole => "cannot convert float infinity to integer"
  | nanToWhole => "cannot convert float NaN to integer"
  | numeralTooLong digits =>
    "Exceeds the limit (4300 digits) for integer string conversion: value has " ++
      s!"{digits} digits; use sys.set_int_max_str_digits() to increase the limit"
  | wholeTooLong =>
    "Exceeds the limit (4300 digits) for integer string conversion; " ++
      "use sys.set_int_max_str_digits() to increase the limit"
  | notStrict shown => s!"Out of range float values are not JSON compliant: {shown}"
  | notOrdered comparison kind =>
    s!"'{comparison}' not supported between instances of '{kind.name}' and 'int'"
  | notNumeric kind => s!"must be real number, not {kind.name}"
  | unsupported operator left right =>
    s!"unsupported operand type(s) for {operator}: '{left.name}' and '{right.name}'"
  | notRepeatable kind => s!"can't multiply sequence by non-int of type '{kind.name}'"
  | repeatsTooMany => "cannot fit 'int' into an index-sized integer"
  | repeatsTooLong => ""
  | notJoined kind =>
    let name := kind.name
    s!"can only concatenate {name} (not \"float\") to {name}"
  | notConvertible kind =>
    s!"float() argument must be a string or a real number, not '{kind.name}'"
  | notReal text => s!"could not convert string to float: {quoted text}"
  | notText kind => s!"expected string or bytes-like object, got '{kind.name}'"
  | noProperty kind property => s!"'{kind.name}' object has no attribute '{property}'"
  | tempoNotPositive shown => s!"bpm must be > 0, got {shown}"
  | unknownUnit unit => s!"unknown duration unit: {quoted unit}"
  | notDuration text => s!"not a duration literal: {quoted text}"
  | beatBeforeStart shown => s!"beat must be >= 0, got {shown}"
  | secondsBeforeStart shown => s!"seconds must be >= 0, got {shown}"
  | notItem text => s!"not an item: {quoted text}"
  | nullInPath => "embedded null byte"
  | undecodable fault => fault.message
  | tooDeep kind =>
    let name := if kind = .list then "array" else "object"
    s!"maximum recursion depth exceeded while decoding a JSON {name} from a unicode string"
  | conflict why _ => s!"Tempo map conflict: {why.reason}"
  | input source fault => s!"Cannot read {source}: {fault.reason}"
  | noIr source => s!"No IR for {source}: processing hit a fatal diagnostic"
  | noSong source => s!"No song for {source}: processing hit a fatal diagnostic"
  | noWorkers => "max_workers must be greater than 0"

end CueSheet
