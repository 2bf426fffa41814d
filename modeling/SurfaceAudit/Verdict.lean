import SurfaceAudit.Value.Written

/-!
# Verdicts

How well a plugin works on a surface: three verdicts in the order of restriction. Of several
verdicts the most restrictive counts.
-/

namespace SurfaceAudit

/-- How well something works on a surface. -/
inductive Verdict where
  /-- It works. -/
  | compatible
  /-- It may not work, and somebody has to look. -/
  | needsReview
  /-- It does not work. -/
  | incompatible
  deriving DecidableEq, Inhabited

namespace Verdict

/-- All verdicts, from the least to the most restrictive. -/
def all : List Verdict := [.compatible, .needsReview, .incompatible]

/-- How restrictive a verdict is. -/
def rank : Verdict → Nat
  | .compatible => 0
  | .needsReview => 1
  | .incompatible => 2

/-- The name of a verdict. -/
def name : Verdict → Text
  | .compatible => "compatible"
  | .needsReview => "needs-review"
  | .incompatible => "incompatible"

/-- The more restrictive of two verdicts. -/
def worse (a b : Verdict) : Verdict := if a.rank < b.rank then b else a

/-- The most restrictive of some verdicts; without any, compatible. -/
def worst (vs : List Verdict) : Verdict := vs.foldl worse .compatible

/-- The verdict with a name. -/
def ofText? (t : Text) : Option Verdict := all.find? (·.name == t)

/-- The verdict that a value names. -/
def ofValue (v : Value) : Attempt Verdict :=
  match v.text?.bind ofText? with
  | some verdict => .ok verdict
  | none => v.quoted.bind fun shown => .error (.notVerdict shown)

instance : LE Verdict := ⟨fun a b => a.rank ≤ b.rank⟩

instance (a b : Verdict) : Decidable (a ≤ b) := inferInstanceAs (Decidable (a.rank ≤ b.rank))

/-- A verdict is at most as bad as itself. -/
@[simp] theorem le_refl (a : Verdict) : a ≤ a := Nat.le_refl _

/-- Verdicts of one rank are equal. -/
theorem rank_injective {a b : Verdict} (h : a.rank = b.rank) : a = b := by
  cases a <;> cases b <;> simp_all [rank]

/-- The order of the verdicts is transitive. -/
theorem le_trans {a b c : Verdict} (h : a ≤ b) (k : b ≤ c) : a ≤ c := Nat.le_trans h k

/-- Verdicts of which neither is worse are equal. -/
theorem le_antisymm {a b : Verdict} (h : a ≤ b) (k : b ≤ a) : a = b :=
  rank_injective (Nat.le_antisymm h k)

/-- No verdict is better than being compatible. -/
@[simp] theorem compatible_le (a : Verdict) : compatible ≤ a := Nat.zero_le _

/-- The worse of two verdicts is their least upper bound. -/
theorem worse_le_iff {a b c : Verdict} : worse a b ≤ c ↔ a ≤ c ∧ b ≤ c := by
  cases a <;> cases b <;> cases c <;> decide

end Verdict

end SurfaceAudit
