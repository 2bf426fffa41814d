/-!
# Sorting by rank

A stable sort. It goes through the list from its end, so that it can be evaluated wherever the list
is given.
-/

namespace SurfaceAudit.Rank

variable {α : Type}

/-- An element put into its place among others that are in order, before those of its rank. -/
def insert (le : α → α → Bool) (x : α) : List α → List α
  | [] => [x]
  | y :: r => if le x y then x :: y :: r else y :: insert le x r

/-- The elements in order; those of one rank stay in theirs. -/
def sort (le : α → α → Bool) (xs : List α) : List α := xs.foldr (insert le) []

end SurfaceAudit.Rank
