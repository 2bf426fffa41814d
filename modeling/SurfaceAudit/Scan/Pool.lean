/-!
# Pools of workers

Jobs are numbered. One worker does them one after another; several finish them in an order of their
own. Outcomes are filed under the numbers of their jobs, so that they can be had in the order of the
jobs again.
-/

namespace SurfaceAudit

/-- The order in which several workers finish a number of jobs. Every job is finished once. -/
structure Schedule where
  /-- The numbers of the jobs in the order in which they are finished. -/
  order : Nat → List Nat
  /-- Every job is finished once. -/
  order_perm : ∀ n, (order n).Perm (List.range n)

namespace Schedule

/-- The jobs are finished in their own order. -/
def inTurn : Schedule := ⟨List.range, fun _ => .refl _⟩

end Schedule

namespace Pool

/-- The number of workers for a number of jobs: one at least, and no more than there are jobs. -/
def size (wanted : Int) (jobs : Nat) : Int := max 1 (min wanted jobs)

/-- The numbers of jobs in the order in which they are finished. -/
def finished (s : Schedule) (workers : Int) (jobs : Nat) : List Nat :=
  if workers == 1 then List.range jobs else s.order jobs

/-- The outcomes of jobs under their numbers, in the order in which they are finished. -/
def outcomes {α β : Type} (job : α → β) (jobs : List α) (order : List Nat) : List (Nat × β) :=
  order.filterMap fun i => (jobs[i]?).map fun j => (i, job j)

/-- The outcomes of a number of jobs in the order of the jobs. -/
def gathered {β : Type} (jobs : Nat) (filed : List (Nat × β)) : List β :=
  (List.range jobs).filterMap fun i => (filed.find? (·.1 == i)).map (·.2)

/-- The outcomes of jobs that several workers do, in the order of the jobs. -/
def run {α β : Type} (s : Schedule) (job : α → β) (jobs : List α) : List β :=
  gathered jobs.length (outcomes job jobs (s.order jobs.length))

end Pool

end SurfaceAudit
