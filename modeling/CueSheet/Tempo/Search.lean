/-!
# Binary search for a boundary

In a list whose first elements come before a boundary and whose other elements do not, a binary
search finds how many come before it. The search halves a window of the list until it is empty. On a
list that is not ordered in this way it still ends, at an index that depends on the elements it
meets.
-/

namespace CueSheet

/-- The index at which the search ends in the window from `lo` up to `hi`. -/
def boundaryIn {α : Type} (isBefore : α → Bool) (xs : List α) (lo hi : Nat)
    (inside : hi ≤ xs.length) : Nat :=
  if _h : lo < hi then
    let mid := (lo + hi) / 2
    if isBefore (xs.get ⟨mid, by omega⟩) then boundaryIn isBefore xs (mid + 1) hi inside
    else boundaryIn isBefore xs lo mid (by omega)
  else lo
termination_by hi - lo

/-- The index at which the search ends in a whole list. -/
def boundary {α : Type} (isBefore : α → Bool) (xs : List α) : Nat :=
  boundaryIn isBefore xs 0 xs.length (Nat.le_refl _)

/-- The search ends inside its window. -/
theorem boundaryIn_bounds {α : Type} (isBefore : α → Bool) (xs : List α) {lo hi : Nat}
    (inside : hi ≤ xs.length) (window : lo ≤ hi) :
    lo ≤ boundaryIn isBefore xs lo hi inside ∧ boundaryIn isBefore xs lo hi inside ≤ hi := by
  fun_induction boundaryIn isBefore xs lo hi inside with
  | case1 lo hi inside hlt mid hbefore ih =>
    have hmid : mid = (lo + hi) / 2 := rfl
    have := ih (by omega)
    omega
  | case2 lo hi inside hlt mid hbefore ih =>
    have hmid : mid = (lo + hi) / 2 := rfl
    have := ih (by omega)
    omega
  | case3 lo hi inside hge => omega

/-- The search ends at most at the end of the list. -/
theorem boundary_le_length {α : Type} (isBefore : α → Bool) (xs : List α) :
    boundary isBefore xs ≤ xs.length :=
  (boundaryIn_bounds isBefore xs (Nat.le_refl _) (Nat.zero_le _)).2

example : boundary (· < 5) [0, 2, 5, 5, 9] = 2 ∧ boundary (· ≤ 5) [0, 2, 5, 5, 9] = 4 := by
  decide +kernel

end CueSheet
