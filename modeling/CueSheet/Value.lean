import CueSheet.Numeric.Number

/-!
# Values

A value is what a field of a song or a parameter of a cue may hold, and what documents in JSON are
made of: nothing, a quantity, a text, a list of values, or a record whose members keep their order.
Texts are strings unless another type of texts is named. Songs do not come from documents alone, so
any value may stand where a quantity is meant; the kind of a value tells what it is instead.
-/

namespace CueSheet

/-- The kinds of values. -/
inductive Kind where
  /-- Nothing. -/
  | null
  /-- A truth value. -/
  | truth
  /-- A whole number. -/
  | whole
  /-- A real number. -/
  | real
  /-- A text. -/
  | text
  /-- A list. -/
  | list
  /-- A record. -/
  | record
deriving DecidableEq

/-- The name of a kind in messages. -/
def Kind.name : Kind → String
  | null => "NoneType"
  | truth => "bool"
  | whole => "int"
  | real => "float"
  | text => "str"
  | list => "list"
  | record => "dict"

/-- A value whose texts are of type `τ`. -/
inductive Value (τ : Type := String) where
  /-- Nothing. -/
  | null
  /-- A quantity. -/
  | number (x : Number)
  /-- A text. -/
  | text (t : τ)
  /-- A list of values. -/
  | list (items : List (Value τ))
  /-- A record with its members in order. -/
  | record (members : List (τ × Value τ))

/-- The kind of a quantity. -/
def Number.kind : Number → Kind
  | int _ => .whole
  | real _ => .real
  | bool _ => .truth

namespace Value

variable {τ : Type}

instance : Inhabited (Value τ) := ⟨null⟩

instance : Coe Number (Value τ) := ⟨number⟩

mutual

/-- Whether two values are equal, decided part by part. -/
def decideEq [DecidableEq τ] : (v w : Value τ) → Decidable (v = w)
  | null, w =>
    match w with
    | null => isTrue rfl
    | number _ | text _ | list _ | record _ => isFalse nofun
  | number x, w =>
    match w with
    | number y => decidable_of_iff (x = y) (by simp)
    | null | text _ | list _ | record _ => isFalse nofun
  | text s, w =>
    match w with
    | text t => decidable_of_iff (s = t) (by simp)
    | null | number _ | list _ | record _ => isFalse nofun
  | list xs, w =>
    match w with
    | list ys =>
      have := decideEqItems xs ys
      decidable_of_iff (xs = ys) (by simp)
    | null | number _ | text _ | record _ => isFalse nofun
  | record ms, w =>
    match w with
    | record ns =>
      have := decideEqMembers ms ns
      decidable_of_iff (ms = ns) (by simp)
    | null | number _ | text _ | list _ => isFalse nofun

/-- Whether two lists of values are equal. -/
def decideEqItems [DecidableEq τ] : (xs ys : List (Value τ)) → Decidable (xs = ys)
  | [], [] => isTrue rfl
  | [], _ :: _ | _ :: _, [] => isFalse nofun
  | x :: xs, y :: ys =>
    have := decideEq x y
    have := decideEqItems xs ys
    decidable_of_iff (x = y ∧ xs = ys) (by simp)

/-- Whether two lists of members are equal. -/
def decideEqMembers [DecidableEq τ] : (ms ns : List (τ × Value τ)) → Decidable (ms = ns)
  | [], [] => isTrue rfl
  | [], _ :: _ | _ :: _, [] => isFalse nofun
  | (a, v) :: ms, (b, w) :: ns =>
    have := decideEq v w
    have := decideEqMembers ms ns
    decidable_of_iff (a = b ∧ v = w ∧ ms = ns) (by simp [and_assoc])

end

instance [DecidableEq τ] : DecidableEq (Value τ) := decideEq

/-- The kind of a value. -/
def kind : Value τ → Kind
  | null => .null
  | number x => x.kind
  | text _ => .text
  | list _ => .list
  | record _ => .record

/-- The quantity that a value is, if it is one. -/
def number? : Value τ → Option Number
  | number x => some x
  | null | text _ | list _ | record _ => none

/-- Whether a value is a number, whole or real. -/
def isNumeric : Value τ → Bool
  | number x => x.isNumeric
  | null | text _ | list _ | record _ => false

/-- Whether a value is a number other than an infinity and the undefined value. -/
def isFinite : Value τ → Bool
  | number x => x.isNumeric && x.isFinite
  | null | text _ | list _ | record _ => false

/-- A whole number. -/
abbrev int (n : Int) : Value τ := number (.int n)

/-- A whole number, or nothing if there is none. -/
def ofInt? : Option Int → Value τ
  | some n => int n
  | none => null

/-- A text, or nothing if there is none. -/
def ofText? : Option τ → Value τ
  | some t => text t
  | none => null

/-- A list of texts. -/
def ofTexts (texts : List τ) : Value τ := list (texts.map text)

/-- The members of a record with one more; a value takes the place of an earlier one. -/
def setMember [DecidableEq τ] (members : List (τ × Value τ)) (name : τ) (value : Value τ) :
    List (τ × Value τ) :=
  if (members.lookup name).isSome then
    members.map fun member => if member.1 = name then (name, value) else member
  else members ++ [(name, value)]

/-- A member of a record; nothing if the record does not have it or the value is no record. -/
def get [DecidableEq τ] (name : τ) : Value τ → Value τ
  | record members => (members.lookup name).getD null
  | null | number _ | text _ | list _ => null

end Value

end CueSheet
