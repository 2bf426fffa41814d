/-!
# Sets of code points as tables

A set of numbers is given by the ascending list of the places where membership changes, starting
outside. A number is in the set when an odd number of these places is at most it.
-/

namespace SurfaceAudit

/-- A set of code points, by the ascending places where membership changes. -/
structure Table where
  /-- The first member, the first non-member after it, the next member, and so on. -/
  toggles : Array Nat

namespace Table

/-- The first index in `lo ..< hi` whose toggle is above `n`, or `hi`. -/
def rank (t : Table) (n lo hi : Nat) : Nat :=
  if lo < hi then
    let mid := (lo + hi) / 2
    if t.toggles.getD mid 0 ≤ n then rank t n (mid + 1) hi else rank t n lo mid
  else lo
termination_by hi - lo

/-- The number is in the set. -/
def contains (t : Table) (n : Nat) : Bool := t.rank n 0 t.toggles.size % 2 == 1

end Table

end SurfaceAudit
