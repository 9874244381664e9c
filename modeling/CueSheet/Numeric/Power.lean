/-!
# Powers of two and of ten

The bases in which numbers are rounded and written.
-/

namespace CueSheet

/-- The power of two with a given exponent. -/
def twoTo (n : Nat) : Nat := Nat.pow 2 n

/-- The power of ten with a given exponent. -/
def tenTo (n : Nat) : Nat := Nat.pow 10 n

/-- A power of two is positive. -/
theorem twoTo_pos (n : Nat) : 0 < twoTo n := Nat.pow_pos (by decide)

/-- A power of ten is positive. -/
theorem tenTo_pos (n : Nat) : 0 < tenTo n := Nat.pow_pos (by decide)

@[simp] theorem twoTo_zero : twoTo 0 = 1 := rfl

@[simp] theorem tenTo_zero : tenTo 0 = 1 := rfl

end CueSheet
