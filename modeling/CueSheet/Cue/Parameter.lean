import CueSheet.Cue.Token
import CueSheet.Duration
import CueSheet.Song

/-!
# Parameters of a cue

A parameter is written `key=value`. A value without quotes is a whole number, a real number or a
truth value if it looks like one, and a text otherwise; a value with quotes is always a text. Five
keys hold times: a duration under one of them is turned into beats on the spot and is stored under a
key of its own, in seconds unless it names a unit, or in beats for the key that counts beats.
-/

namespace CueSheet

open Text (isDigit digitValues lower)

/-- Drops one line feed at the end of a text. -/
def dropFinalFeed (text : List Char) : List Char :=
  if text.getLast? = some '\n' then text.dropLast else text

namespace Value

/-- The sign in front of a number, and the text after it. -/
def takeSign : List Char → Bool × List Char
  | '-' :: rest => (true, rest)
  | '+' :: rest => (false, rest)
  | unsigned => (false, unsigned)

/-- The digits of a number, if a text consists of one or more digits. -/
def wholeDigits? (text : List Char) : Option (List Nat) :=
  if !text.isEmpty && text.all isDigit then some (digitValues text) else none

/-- The digits before and after a point, of which one side may be empty. -/
def pointDigits? (text : List Char) : Option (List Nat × List Nat) :=
  let whole := text.takeWhile isDigit
  match text.dropWhile isDigit with
  | '.' :: fraction =>
    if fraction.all isDigit && !(whole.isEmpty && fraction.isEmpty) then
      some (digitValues whole, digitValues fraction)
    else none
  | _ => none

/-- The number that a text looks like: digits with an optional sign, and a point for a real number.
One line feed may follow it. -/
def readNumber? (ρ : Rounding) (text : List Char) : Option (Except Fault Number) :=
  let (negative, unsigned) := takeSign (dropFinalFeed text)
  match wholeDigits? unsigned with
  | some digits =>
    some do
      let n ← readDigits digits
      return .int (if negative then -(n : Int) else n)
  | none =>
    (pointDigits? unsigned).map fun (whole, fraction) =>
      let x := Extended.ofDigits ρ (whole ++ fraction) fraction.length
      return .real (if negative then x.neg else x)

/-- The value that a raw text stands for. -/
def ofRaw (ρ : Rounding) (raw : List Char) : Except Fault Value :=
  if raw.contains '"' then return .text (String.ofList (Token.unquoted raw))
  else
    match readNumber? ρ raw with
    | some read => return .number (← read)
    | none =>
      if lower raw = "true".toList then return .number (.bool true)
      else if lower raw = "false".toList then return .number (.bool false)
      else return .text (String.ofList raw)

end Value

/-- The keys that hold times. -/
inductive TimingKey where
  /-- How long a cue lasts. -/
  | duration
  /-- When a cue starts. -/
  | start
  /-- The beat on which a cue starts. -/
  | startBeat
  /-- How long a cue takes to come in. -/
  | fadeIn
  /-- How long a cue takes to go out. -/
  | fadeOut
deriving DecidableEq

namespace TimingKey

/-- The timing keys by the names under which they are written. -/
def named : List (String × TimingKey) := [
  ("duration", duration), ("start", start), ("start_beat", startBeat), ("fade_in", fadeIn),
  ("fade_out", fadeOut)]

/-- The timing key of a name. -/
def ofName? (name : String) : Option TimingKey := named.lookup name

/-- The key under which the beats are stored; the two keys for the start share one. -/
def stored : TimingKey → String
  | duration => "duration_beats"
  | start | startBeat => "start_beats"
  | fadeIn => "fade_in_beats"
  | fadeOut => "fade_out_beats"

/-- The unit of a bare number. -/
def bareUnit : TimingKey → String
  | startBeat => "beats"
  | duration | start | fadeIn | fadeOut => "s"

/-- The names under which stored times are written back. -/
def writtenAs : List (String × String) := [
  ("duration_beats", "duration"), ("start_beats", "start"), ("fade_in_beats", "fade_in"),
  ("fade_out_beats", "fade_out")]

end TimingKey

/-- The keys that have a meaning for a cue. -/
def recognizedKeys : List String := [
  "duration", "repeat", "intensity", "volume", "pan", "start", "start_beat", "pitch", "fade_in",
  "fade_out", "track"]

/-- The duration that a raw value of a timing key is, if the key is one and the value is not quoted.
-/
def timing? (key : String) (raw : List Char) : Option (TimingKey × Duration) :=
  match TimingKey.ofName? key with
  | some timingKey =>
    if raw.contains '"' then none else (Duration.ofText? raw).map fun d => (timingKey, d)
  | none => none

/-- A parameter as it is stored: its key and its value. -/
def readParameter (ρ : Rounding) (bpm beatsPerBar : Value) (key : String) (raw : List Char) :
    Except Fault (String × Value) :=
  match timing? key raw with
  | some (timingKey, duration) => do
    let duration := { duration with unit := duration.unit.getD timingKey.bareUnit }
    return (timingKey.stored, .number (← duration.toBeats ρ bpm beatsPerBar))
  | none => do return (key, ← Value.ofRaw ρ raw)

end CueSheet
