/-!
# Classes of characters given by their turning points

A class of characters is a set of code points. It is written down as the ascending list of the
points at which membership changes: the class begins at the first point, ends at the second, begins
again at the third, and so on. Membership is then decided by one walk along the list, which stops at
the first point beyond the character.
-/

namespace CueSheet.Text

/-- The ascending code points at which membership in a class changes. -/
abbrev Turns := List Nat

/-- Whether a code point lies in the class: an odd number of turns is at or before it. -/
def Turns.covers : Turns → Nat → Bool
  | [], _ => false
  | turn :: turns, n => if n < turn then false else !(Turns.covers turns n)

/-- A code point before the first turn lies outside the class. -/
theorem Turns.covers_of_lt {turn n : Nat} (turns : Turns) (h : n < turn) :
    Turns.covers (turn :: turns) n = false := by
  simp [Turns.covers, h]

/-- Passing a turn reverses membership. -/
theorem Turns.covers_of_le {turn n : Nat} (turns : Turns) (h : turn ≤ n) :
    Turns.covers (turn :: turns) n = !(Turns.covers turns n) := by
  simp [Turns.covers, Nat.not_lt.mpr h]

end CueSheet.Text
