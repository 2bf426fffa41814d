import SurfaceAudit.Scan.Analysis
import Mathlib.Data.List.Basic
import Mathlib.Data.List.Induction

/-!
# Pools of workers change nothing

A pool finishes its jobs in any order. Their outcomes are filed under their numbers and gathered in
the order of the jobs (`Pool.run_eq_map`), so tasks in a pool give the batches and the notes that
they give one after the other (`ScanTask.runPooled_eq`, `ScanTask.runInTurn_eq`). An analysis sees
tasks only through `ScanTask.runAll`, and therefore does not depend on the workers.
-/

namespace SurfaceAudit

namespace Pool

variable {α β : Type}

/-- The outcomes that are filed hold, under the number of a finished job, the outcome of that job.
-/
theorem find?_outcomes (job : α → β) (jobs : List α) (order : List Nat) (i : Nat)
    (hi : i < jobs.length) (hmem : i ∈ order) :
    (outcomes job jobs order).find? (·.1 == i) = some (i, job jobs[i]) := by
  unfold outcomes
  induction order with
  | nil => simp at hmem
  | cons k r ih =>
    rw [List.filterMap_cons]
    by_cases hk : k = i
    · subst hk
      rw [List.getElem?_eq_getElem hi]
      simp
    · have hr : i ∈ r := by
        rcases List.mem_cons.mp hmem with h | h
        · exact absurd h.symm hk
        · exact h
      -- Another job is filed before, or none; either way the search goes on.
      cases jobs[k]? with
      | none => exact ih hr
      | some j =>
        simp only [Option.map_some]
        rw [List.find?_cons_of_neg (by simpa using hk)]
        exact ih hr

/-- Looking up every position of a list gives the list. -/
theorem filterMap_range_getElem? (f : α → β) (l : List α) :
    (List.range l.length).filterMap (fun i => l[i]?.map f) = l.map f := by
  induction l using List.reverseRecOn with
  | nil => rfl
  | append_singleton l a ih =>
    have hinit : (List.range l.length).filterMap (fun i => (l ++ [a])[i]?.map f) = l.map f := by
      rw [← ih]
      apply List.filterMap_congr
      intro i hi
      rw [List.getElem?_append_left (List.mem_range.mp hi)]
    rw [List.length_append, List.length_singleton, List.range_succ, List.filterMap_append, hinit,
      List.map_append]
    simp

/-- If every job is finished, the outcomes in the order of the jobs are those of the jobs. -/
theorem gathered_outcomes (job : α → β) (jobs : List α) (order : List Nat)
    (h : ∀ i, i < jobs.length → i ∈ order) :
    gathered jobs.length (outcomes job jobs order) = jobs.map job := by
  rw [← filterMap_range_getElem? job jobs]
  unfold gathered
  apply List.filterMap_congr
  intro i hi
  have hi : i < jobs.length := List.mem_range.mp hi
  rw [find?_outcomes job jobs order i hi (h i hi), List.getElem?_eq_getElem hi]
  rfl

/-- Every job is in a schedule. -/
theorem mem_order (s : Schedule) {n i : Nat} (hi : i < n) : i ∈ s.order n :=
  (s.order_perm n).mem_iff.mpr (List.mem_range.mpr hi)

/-- A pool gives the outcomes of its jobs in their order, whatever the schedule. -/
theorem run_eq_map (s : Schedule) (job : α → β) (jobs : List α) : run s job jobs = jobs.map job :=
  gathered_outcomes job jobs _ fun _ hi => mem_order s hi

end Pool

namespace ScanTask

/-- A task that fails has no evidence and one note. -/
theorem run_of_error {t : ScanTask} {f : Fault} (h : t.evidence = .error f) :
    t.run = ([], [.scanner t.label f]) := by
  unfold run
  rw [h]

/-- A task that does not fail has its evidence and no note. -/
theorem run_of_ok {t : ScanTask} {es : List Evidence} (h : t.evidence = .ok es) :
    t.run = (es, []) := by
  unfold run
  rw [h]

/-- Tasks that run one after the other give a batch each, and their notes in order. -/
theorem runInTurn_eq (tasks : List ScanTask) (notes : List Note) :
    runInTurn tasks notes = (tasks.map (·.run.1), notes ++ tasks.flatMap (·.run.2)) := by
  induction tasks generalizing notes with
  | nil => simp [runInTurn]
  | cons t r ih =>
    unfold runInTurn
    rw [ih]
    simp

/-- Tasks in a pool give a batch each, and their notes in order. -/
theorem runPooled_eq (s : Schedule) (tasks : List ScanTask) (notes : List Note) :
    runPooled s tasks notes = (tasks.map (·.run.1), notes ++ tasks.flatMap (·.run.2)) := by
  unfold runPooled
  rw [Pool.run_eq_map]
  simp [List.flatMap_map]

/-- Tasks give a batch each, and their notes in order, with any number of workers. -/
theorem runAll_eq (s : Schedule) (workers : Int) (tasks : List ScanTask) (notes : List Note) :
    runAll s workers tasks notes = (tasks.map (·.run.1), notes ++ tasks.flatMap (·.run.2)) := by
  unfold runAll
  split
  · exact runInTurn_eq tasks notes
  · exact runPooled_eq s tasks notes

end ScanTask

namespace Analyzer

/-- The analyzer with another number of workers that finish in another order. -/
def withPool (a : Analyzer) (s : Schedule) (workers : Int) : Analyzer :=
  { a with config := { a.config with workers := .int workers }, schedule := s }

/-- The tasks for contents, and the notes on them. -/
abbrev tasks (a : Analyzer) (c : Contents) : List ScanTask × List Note :=
  ScanTask.ofContents a.config.scanners a.rules c

/-- What the scanners find, batch by batch in the order of the tasks, and the notes on them. -/
theorem scan_eq (a : Analyzer) (c : Contents) (notes : List Note) {workers : Int}
    (h : a.config.workers.toInt = .ok workers) :
    a.scan c notes = .ok ((a.tasks c).1.flatMap (·.run.1),
      notes ++ (a.tasks c).2 ++ (a.tasks c).1.flatMap (·.run.2)) := by
  unfold scan
  simp only [h, ScanTask.runAll_eq]
  rfl

/-- What the scanners find does not depend on the workers. -/
theorem scan_withPool (a : Analyzer) (s s' : Schedule) (w w' : Int) (c : Contents)
    (notes : List Note) :
    (a.withPool s w).scan c notes = (a.withPool s' w').scan c notes := by
  have h := (a.withPool s w).scan_eq c notes rfl
  have h' := (a.withPool s' w').scan_eq c notes rfl
  exact h.trans h'.symm

end Analyzer

/-- Tasks in a pool give the same batches and notes as one after the other, for every number of
workers and every order in which the pool finishes them: a batch for each task in the order of the
tasks, and after the notes that were there those of the tasks that fail. A task that fails has an
empty batch and one note. Hence an analysis does not depend on the workers. -/
theorem pooled_eq_sequential :
    (∀ (s : Schedule) (workers : Int) (tasks : List ScanTask) (notes : List Note),
      ScanTask.runAll s workers tasks notes = ScanTask.runInTurn tasks notes ∧
        (ScanTask.runAll s workers tasks notes).1 = tasks.map (·.run.1) ∧
        (ScanTask.runAll s workers tasks notes).2 = notes ++ tasks.flatMap (·.run.2)) ∧
      (∀ (t : ScanTask) (f : Fault), t.evidence = .error f → t.run = ([], [.scanner t.label f])) ∧
      (∀ (t : ScanTask) (es : List Evidence), t.evidence = .ok es → t.run = (es, [])) ∧
      ∀ (a : Analyzer) (d : Disk) (path : Text) (s s' : Schedule) (w w' : Int),
        (a.withPool s w).analyze d path = (a.withPool s' w').analyze d path := by
  refine ⟨?_, fun _ _ h => ScanTask.run_of_error h, fun _ _ h => ScanTask.run_of_ok h, ?_⟩
  · intro s workers tasks notes
    rw [ScanTask.runAll_eq, ScanTask.runInTurn_eq]
    exact ⟨rfl, rfl, rfl⟩
  · intro a d path s s' w w'
    unfold Analyzer.analyze Analyzer.survey
    simp only [a.scan_withPool s s' w w']
    rfl

end SurfaceAudit
