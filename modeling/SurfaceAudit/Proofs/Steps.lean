import SurfaceAudit.Plugin.Note
import Mathlib.Data.List.Forall2

/-!
# Steps that may fail or take notes

When a chain of operations gives a value, each of them does (`Attempt.bind_eq_ok_iff`), and a list
of operations gives a list of values if each gives one (`Attempt.mapM_eq_ok_iff`). A step that takes
notes is steady if it only adds notes: its outcome and the notes that it adds do not depend on those
that are there. The outcome of a chain of steady steps is the chain of their outcomes
(`Noting.outcome_bind`), so it can be followed without the notes.
-/

namespace SurfaceAudit

namespace Attempt

variable {α β : Type}

/-- Outcomes are compared by what they hold. -/
instance decEq [DecidableEq α] : DecidableEq (Attempt α)
  | .ok a, .ok b => decidable_of_iff (a = b) (by simp)
  | .error e, .error f => decidable_of_iff (e = f) (by simp)
  | .ok _, .error _ => isFalse (by simp)
  | .error _, .ok _ => isFalse (by simp)

/-- An operation that does not fail gives a value. -/
theorem exists_of_isOk {ε : Type} {x : Except ε α} (h : x.isOk = true) : ∃ a, x = .ok a := by
  cases x with
  | ok a => exact ⟨a, rfl⟩
  | error e => cases h

/-- A chain of two operations gives a value exactly when the first gives one from which the second
gives it. -/
theorem bind_eq_ok_iff {x : Attempt α} {f : α → Attempt β} {b : β} :
    (x >>= f) = .ok b ↔ ∃ a, x = .ok a ∧ f a = .ok b := by
  cases x <;> simp [bind, Except.bind]

/-- A chain of two operations fails exactly when one of them does. -/
theorem bind_eq_error_iff {x : Attempt α} {f : α → Attempt β} {e : Fault} :
    (x >>= f) = .error e ↔ x = .error e ∨ ∃ a, x = .ok a ∧ f a = .error e := by
  cases x <;> simp [bind, Except.bind]

/-- What follows an operation counts only for the value that the operation gives. -/
theorem bind_congr_ok {x : Attempt α} {f g : α → Attempt β} (h : ∀ a, x = .ok a → f a = g a) :
    (x >>= f) = x >>= g := by
  cases x with
  | ok a => exact h a rfl
  | error e => rfl

/-- What is made of the value of an operation is had exactly when the value is. -/
theorem map_eq_ok_iff {x : Attempt α} {g : α → β} {b : β} :
    x.map g = .ok b ↔ ∃ a, x = .ok a ∧ g a = b := by
  cases x <;> simp [Except.map]

/-- What is made of the value of an operation fails to be had exactly when the value does. -/
theorem map_eq_error_iff {x : Attempt α} {g : α → β} {e : Fault} :
    x.map g = .error e ↔ x = .error e := by
  cases x <;> simp [Except.map]

/-- An operation over a list gives a list of values exactly when it gives each of them in turn. -/
theorem mapM_eq_ok_iff {f : α → Attempt β} {xs : List α} {ys : List β} :
    xs.mapM f = .ok ys ↔ List.Forall₂ (fun x y => f x = .ok y) xs ys := by
  induction xs generalizing ys with
  | nil =>
    rw [List.mapM_nil, List.forall₂_nil_left_iff]
    constructor
    · intro h
      cases h
      rfl
    · rintro rfl
      rfl
  | cons x r ih =>
    rw [List.mapM_cons, bind_eq_ok_iff, List.forall₂_cons_left_iff]
    constructor
    · rintro ⟨y, hy, h⟩
      obtain ⟨zs, hz, h⟩ := bind_eq_ok_iff.mp h
      cases h
      exact ⟨y, zs, hy, ih.mp hz, rfl⟩
    · rintro ⟨y, zs, hy, hz, rfl⟩
      exact ⟨y, hy, bind_eq_ok_iff.mpr ⟨zs, ih.mpr hz, rfl⟩⟩

/-- An operation over a list gives some list of values exactly when it gives a value for each
member. -/
theorem exists_mapM_eq_ok_iff {f : α → Attempt β} {xs : List α} :
    (∃ ys, xs.mapM f = .ok ys) ↔ ∀ x ∈ xs, ∃ y, f x = .ok y := by
  induction xs with
  | nil => simp [pure, Except.pure]
  | cons x r ih =>
    simp only [List.forall_mem_cons, ← ih, mapM_eq_ok_iff, List.forall₂_cons_left_iff]
    constructor
    · rintro ⟨-, y, zs, hy, hz, rfl⟩
      exact ⟨⟨y, hy⟩, zs, hz⟩
    · rintro ⟨⟨y, hy⟩, zs, hz⟩
      exact ⟨y :: zs, y, zs, hy, hz, rfl⟩

/-- The values of an operation over a list are those that it gives for the members. -/
theorem mem_iff_of_mapM_eq_ok {f : α → Attempt β} {xs : List α} {ys : List β}
    (h : xs.mapM f = .ok ys) {y : β} : y ∈ ys ↔ ∃ x ∈ xs, f x = .ok y := by
  rw [mapM_eq_ok_iff] at h
  induction h with
  | nil => simp
  | @cons x z xs zs hx _ ih =>
    have hhead : f x = .ok y ↔ y = z := by rw [hx, Except.ok.injEq, eq_comm]
    rw [List.mem_cons, ih, List.exists_mem_cons_iff, hhead]

/-- An operation over a list that fails does so at one of the members. -/
theorem exists_of_mapM_eq_error {f : α → Attempt β} {xs : List α} {e : Fault}
    (h : xs.mapM f = .error e) : ∃ x ∈ xs, f x = .error e := by
  induction xs with
  | nil => exact absurd h (by simp [pure, Except.pure])
  | cons x r ih =>
    rw [List.mapM_cons] at h
    rcases bind_eq_error_iff.mp h with h | ⟨y, -, h⟩
    · exact ⟨x, List.mem_cons_self, h⟩
    · rcases bind_eq_error_iff.mp h with h | ⟨ys, -, h⟩
      · obtain ⟨z, hz, h⟩ := ih h
        exact ⟨z, List.mem_cons_of_mem x hz, h⟩
      · exact absurd h (by simp [pure, Except.pure])

/-- If an operation fails, it is with a fault that has a property. -/
def FailsOnly (P : Fault → Prop) (x : Attempt α) : Prop := ∀ f, x = .error f → P f

namespace FailsOnly

variable {P : Fault → Prop} {x y : Attempt α} {g : α → Attempt β}

/-- A value fails with nothing. -/
theorem ok (a : α) : FailsOnly P (.ok a) := fun _ h => nomatch h

/-- An operation that fails with a fault that has the property fails only so. -/
theorem error {f : Fault} (h : P f) : FailsOnly P (.error f : Attempt α) := by
  intro g hg
  cases hg
  exact h

/-- A chain of operations fails as one of them does. -/
theorem bind (h : FailsOnly P x) (hg : ∀ a, FailsOnly P (g a)) : FailsOnly P (x >>= g) := by
  intro f hf
  rcases bind_eq_error_iff.mp hf with hf | ⟨a, -, hf⟩
  · exact h f hf
  · exact hg a f hf

/-- What is made of a value adds no faults. -/
theorem map (h : FailsOnly P x) (k : α → β) : FailsOnly P (x.map k) :=
  fun f hf => h f (map_eq_error_iff.mp hf)

/-- A choice between operations fails as they do. -/
theorem ite {c : Prop} [Decidable c] (hx : FailsOnly P x) (hy : FailsOnly P y) :
    FailsOnly P (if c then x else y) := by
  split
  · exact hx
  · exact hy

/-- An operation over a list fails as it does at a member. -/
theorem mapM (h : ∀ a, FailsOnly P (g a)) (xs : List α) : FailsOnly P (xs.mapM g) := by
  intro f hf
  obtain ⟨x, -, hx⟩ := exists_of_mapM_eq_error hf
  exact h x f hx

end FailsOnly

end Attempt

namespace Noting

variable {α β : Type}

/-- The outcome of a step that starts without notes. -/
def outcome (s : Noting α) : Attempt α := (s.runFrom []).1

/-- The notes of a step that starts without notes. -/
def notes (s : Noting α) : List Note := (s.runFrom []).2

/-- The step only adds notes to those that are there, and does not depend on them. -/
def IsSteady (s : Noting α) : Prop := ∀ before, s.runFrom before = (s.outcome, before ++ s.notes)

/-- A chain of two steps goes on with the value and the notes of the first. -/
theorem runFrom_bind (s : Noting α) (k : α → Noting β) (before : List Note) :
    (s >>= k).runFrom before =
      match s.runFrom before with
      | (.ok a, notes) => (k a).runFrom notes
      | (.error f, notes) => (.error f, notes) := by
  unfold runFrom
  rw [ExceptT.run_bind, StateT.run_bind]
  change (match s.run.run before with | (x, notes) => _) = _
  rcases s.run.run before with ⟨o, notes⟩
  cases o <;> rfl

/-- A step that gives a value at once has no notes. -/
theorem runFrom_pure (a : α) (before : List Note) :
    (pure a : Noting α).runFrom before = (.ok a, before) := rfl

/-- A step that fails at once has no notes. -/
theorem runFrom_throw (f : Fault) (before : List Note) :
    (throw f : Noting α).runFrom before = (.error f, before) := rfl

/-- A step that takes no notes has its own outcome. -/
theorem runFrom_ofAttempt (x : Attempt α) (before : List Note) :
    (ofAttempt x).runFrom before = (x, before) := rfl

/-- A step that takes notes adds them. -/
theorem runFrom_add (ns before : List Note) :
    (add ns).runFrom before = (.ok (), before ++ ns) := rfl

/-- A value alone comes to itself. -/
@[simp] theorem outcome_pure (a : α) : (pure a : Noting α).outcome = .ok a := rfl

/-- A fault comes to itself. -/
@[simp] theorem outcome_throw (f : Fault) : (throw f : Noting α).outcome = .error f := rfl

/-- An operation comes to its own outcome. -/
@[simp] theorem outcome_ofAttempt (x : Attempt α) : (ofAttempt x).outcome = x := rfl

/-- The step that adds notes does not fail. -/
@[simp] theorem outcome_add (ns : List Note) : (add ns).outcome = .ok () := rfl

/-- A step goes on with a value that is there. -/
theorem ofAttempt_ok_bind (a : α) (k : α → Noting β) : (ofAttempt (.ok a) >>= k) = k a := rfl

/-- A value alone only adds notes: none. -/
theorem isSteady_pure (a : α) : (pure a : Noting α).IsSteady := fun before => by
  simp [runFrom_pure, outcome, notes]

/-- A fault only adds notes: none. -/
theorem isSteady_throw (f : Fault) : (throw f : Noting α).IsSteady := fun before => by
  simp [runFrom_throw, outcome, notes]

/-- An operation only adds notes: none. -/
theorem isSteady_ofAttempt (x : Attempt α) : (ofAttempt x).IsSteady := fun before => by
  simp [runFrom_ofAttempt, outcome, notes]

/-- The step that adds notes only adds them. -/
theorem isSteady_add (ns : List Note) : (add ns).IsSteady := fun before => by
  simp [runFrom_add, outcome, notes]

/-- The outcome of a chain of two steps is the chain of their outcomes. -/
theorem outcome_bind {s : Noting α} {k : α → Noting β} (hk : ∀ a, (k a).IsSteady) :
    (s >>= k).outcome = s.outcome >>= fun a => (k a).outcome := by
  unfold outcome
  rw [runFrom_bind]
  rcases s.runFrom [] with ⟨o, notes⟩
  cases o with
  | error f => rfl
  | ok a =>
    simp only [hk a notes]
    rfl

/-- A chain of steady steps is steady. -/
theorem isSteady_bind {s : Noting α} {k : α → Noting β} (hs : s.IsSteady)
    (hk : ∀ a, (k a).IsSteady) : (s >>= k).IsSteady := by
  intro before
  unfold outcome notes
  rw [runFrom_bind, runFrom_bind, hs before, hs []]
  cases s.outcome with
  | error f => simp
  | ok a =>
    simp only [hk a (before ++ s.notes), hk a ([] ++ s.notes)]
    simp

/-- The outcome of a step after which something is made of the value. -/
theorem outcome_bind_pure (s : Noting α) (g : α → β) :
    (s >>= fun a => pure (g a)).outcome = s.outcome.map g := by
  rw [outcome_bind fun a => isSteady_pure (g a)]
  cases s.outcome <;> rfl

/-- A steady step for each member of a list is steady. -/
theorem isSteady_mapM {f : α → Noting β} (hf : ∀ a, (f a).IsSteady) (xs : List α) :
    (xs.mapM f).IsSteady := by
  induction xs with
  | nil => exact isSteady_pure []
  | cons x r ih =>
    rw [List.mapM_cons]
    exact isSteady_bind (hf x) fun y => isSteady_bind ih fun ys => isSteady_pure _

/-- The outcome of a steady step for each member of a list. -/
theorem outcome_mapM {f : α → Noting β} (hf : ∀ a, (f a).IsSteady) (xs : List α) :
    (xs.mapM f).outcome = xs.mapM fun x => (f x).outcome := by
  induction xs with
  | nil => rfl
  | cons x r ih =>
    rw [List.mapM_cons, List.mapM_cons,
      outcome_bind fun y => isSteady_bind (isSteady_mapM hf r) fun ys => isSteady_pure _]
    congr 1
    funext y
    rw [outcome_bind fun ys => isSteady_pure _, ih]
    rfl

/-- A value alone has no notes. -/
@[simp] theorem notes_pure (a : α) : (pure a : Noting α).notes = [] := rfl

/-- An operation has no notes. -/
@[simp] theorem notes_ofAttempt (x : Attempt α) : (ofAttempt x).notes = [] := rfl

/-- The notes of the step that adds some are these. -/
@[simp] theorem notes_add (ns : List Note) : (add ns).notes = ns := rfl

/-- The notes of a chain whose first step gives a value: those of the first step, then those of the
second. -/
theorem notes_bind {s : Noting α} {k : α → Noting β} {a : α} (hs : s.outcome = .ok a)
    (hk : (k a).IsSteady) : (s >>= k).notes = s.notes ++ (k a).notes := by
  have hrun : s.runFrom [] = (.ok a, s.notes) := Prod.ext hs rfl
  change ((s >>= k).runFrom []).2 = _
  rw [runFrom_bind, hrun]
  change ((k a).runFrom s.notes).2 = _
  rw [hk s.notes]

/-- Making something of the value of a step adds no notes. -/
theorem notes_bind_pure (s : Noting α) (g : α → β) :
    (s >>= fun a => pure (g a)).notes = s.notes := by
  unfold notes
  rw [runFrom_bind]
  rcases s.runFrom [] with ⟨o, notes⟩
  cases o <;> rfl

/-- The notes of a step for each member of a list, if each gives a value, in order. -/
theorem notes_mapM {f : α → Noting β} (hf : ∀ a, (f a).IsSteady) {xs : List α} {ys : List β}
    (h : (xs.mapM f).outcome = .ok ys) : (xs.mapM f).notes = xs.flatMap fun x => (f x).notes := by
  induction xs generalizing ys with
  | nil => rfl
  | cons x r ih =>
    have hrest (y : β) : (r.mapM f >>= fun zs => (pure (y :: zs) : Noting (List β))).IsSteady :=
      isSteady_bind (isSteady_mapM hf r) fun _ => isSteady_pure _
    rw [outcome_mapM hf, List.mapM_cons] at h
    obtain ⟨y, hy, h⟩ := Attempt.bind_eq_ok_iff.mp h
    obtain ⟨zs, hz, -⟩ := Attempt.bind_eq_ok_iff.mp h
    rw [← outcome_mapM hf] at hz
    rw [List.mapM_cons, notes_bind hy (hrest y), notes_bind_pure, ih hz, List.flatMap_cons]

/-- Steps that run alike whatever notes are there are the same. -/
theorem eq_of_runFrom {s t : Noting α} (h : ∀ before, s.runFrom before = t.runFrom before) :
    s = t := by
  funext before
  exact h before

/-- What follows a steady step counts only for the value that the step gives. -/
theorem bind_congr_outcome {s : Noting α} (hs : s.IsSteady) {k k' : α → Noting β}
    (h : ∀ a, s.outcome = .ok a → k a = k' a) : (s >>= k) = s >>= k' := by
  refine eq_of_runFrom fun before => ?_
  rw [runFrom_bind, runFrom_bind, hs before]
  cases ho : s.outcome with
  | error f => rfl
  | ok a =>
    change (k a).runFrom _ = (k' a).runFrom _
    rw [h a ho]

/-- A step for each member of a list counts only for the members. -/
theorem mapM_congr_mem {f g : α → Noting β} {xs : List α} (h : ∀ x ∈ xs, f x = g x) :
    xs.mapM f = xs.mapM g := by
  induction xs with
  | nil => rfl
  | cons x r ih =>
    rw [List.mapM_cons, List.mapM_cons, h x List.mem_cons_self,
      ih fun y hy => h y (List.mem_cons_of_mem x hy)]

end Noting

end SurfaceAudit
