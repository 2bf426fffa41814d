import SurfaceAudit.Proofs.Failure

/-!
# Sweeps keep plugins apart

A sweep files the outcome of each plugin under its number, in the order in which the pool finishes
them. If each analysis by itself gives a result or a defect of manifests, nothing ends the sweep
(`Analyzer.filed_outcomes`), and its entries are those of the plugins alone, in their order
(`sweep_keeps_apart`), for any number of workers and any schedule.
-/

namespace SurfaceAudit

namespace Pool

/-- Every job is finished, by one worker or by several. -/
theorem mem_finished (s : Schedule) (workers : Int) {jobs i : Nat} (hi : i < jobs) :
    i ∈ finished s workers jobs := by
  unfold finished
  split
  · exact List.mem_range.mpr hi
  · exact mem_order s hi

end Pool

namespace Analyzer

variable (a : Analyzer) (d : Disk)

/-- The analysis of the plugin at a path gives a result, or a defect of the manifest. -/
def Settles (path : Text) : Prop :=
  (∃ r, a.analyze d path = .ok r) ∨ ∃ defect, a.analyze d path = .error (.manifest defect)

/-- The entry of a sweep is that of the plugin at a path: the result of its analysis alone, or the
words for the defect with which that fails. -/
def IsEntry (path : Text) (e : BatchEntry) : Prop :=
  e.path = path ∧
    ((∃ r, a.analyze d path = .ok r ∧ e.result = some r ∧ e.error = none) ∨
      ∃ defect, a.analyze d path = .error (.manifest defect) ∧ e.result = none ∧
        e.error = some (Fault.manifest defect).message)

variable {a d}

/-- A plugin whose analysis gives a result or a defect of the manifest has an entry. -/
theorem Settles.exists_entry {path : Text} (h : a.Settles d path) :
    ∃ e, a.entry d path = .ok e ∧ a.IsEntry d path e := by
  rcases h with ⟨r, hr⟩ | ⟨defect, hd⟩
  · refine ⟨⟨path, some r, none⟩, ?_, rfl, .inl ⟨r, hr, rfl, rfl⟩⟩
    unfold entry
    rw [hr]
  · refine ⟨⟨path, none, some defect.message⟩, ?_, rfl, .inr ⟨defect, hd, rfl, rfl⟩⟩
    unfold entry
    rw [hd]

/-- If no job fails, what is filed are the values of the jobs, in the order in which they are
finished. -/
theorem filed_outcomes {job : Text → Attempt BatchEntry} {value : Text → BatchEntry}
    {jobs : List Text} (h : ∀ j ∈ jobs, job j = .ok (value j)) (order : List Nat) :
    filed (Pool.outcomes job jobs order) = .ok (Pool.outcomes value jobs order) := by
  induction order with
  | nil => rfl
  | cons i r ih =>
    unfold Pool.outcomes at ih ⊢
    rw [List.filterMap_cons, List.filterMap_cons]
    cases hj : jobs[i]? with
    | none => exact ih
    | some j =>
      have hvalue : job j = .ok (value j) := h j (List.mem_of_getElem? hj)
      simp only [Option.map_some, filed, hvalue, ih]
      rfl

/-- A sweep over plugins that have entries gives these, in the order of the plugins. -/
theorem analyzeMany_eq {value : Text → BatchEntry} {paths : List Text}
    (h : ∀ path ∈ paths, a.entry d path = .ok (value path)) {workers : Option Value} {w : Int}
    (hw : (workers.getD a.config.workers).toInt = .ok w) :
    a.analyzeMany d paths workers = .ok (paths.map value) := by
  unfold analyzeMany
  by_cases hnil : paths = []
  · subst hnil
    rfl
  · rw [if_neg (by simpa using hnil), hw]
    have hgathered := Pool.gathered_outcomes value paths _ fun _ hi =>
      Pool.mem_finished a.schedule (Pool.size w paths.length) hi
    simp only [bind, Except.bind, filed_outcomes h, hgathered]
    rfl

/-- An analysis does not depend on the workers. -/
theorem analyze_withPool {n : Int} (hn : a.config.workers = .int n) (s : Schedule) (m : Int)
    (path : Text) : (a.withPool s m).analyze d path = a.analyze d path := by
  have hself : a = a.withPool a.schedule n := by
    unfold withPool
    rw [← hn]
  rw [hself]
  unfold analyze survey
  simp only [scan_withPool (a.withPool a.schedule n) s a.schedule m n]
  rfl

end Analyzer

/-- A sweep keeps its plugins apart. If the analysis of each plugin by itself gives a result or a
defect of the manifest, there is one list of entries that every sweep over the plugins gives, with
any number of workers set in the configuration or given, and in whatever order they finish: the
entries stand in the order of the plugins, and each is that of its plugin alone. -/
theorem sweep_keeps_apart (a : Analyzer) (d : Disk) (paths : List Text) {n : Int}
    (hn : a.config.workers = .int n) (h : ∀ path ∈ paths, a.Settles d path) :
    ∃ entries, ∀ (s : Schedule) (m : Int) (given : Option Int),
      (a.withPool s m).analyzeMany d paths (given.map .int) = .ok entries ∧
        List.Forall₂ ((a.withPool s m).IsEntry d) paths entries := by
  -- The entries are chosen before the schedule and the workers, which therefore cannot matter.
  choose! value hvalue using fun path hp => (h path hp).exists_entry
  refine ⟨paths.map value, fun s m given => ⟨?_, ?_⟩⟩
  · have hentry : ∀ path ∈ paths, (a.withPool s m).entry d path = .ok (value path) := by
      intro path hp
      rw [← (hvalue path hp).1, Analyzer.entry, Analyzer.entry, Analyzer.analyze_withPool hn]
    cases given with
    | none => exact Analyzer.analyzeMany_eq hentry (w := m) rfl
    | some k => exact Analyzer.analyzeMany_eq hentry (w := k) rfl
  · rw [List.forall₂_map_right_iff, List.forall₂_same]
    intro path hp
    unfold Analyzer.IsEntry
    rw [Analyzer.analyze_withPool hn]
    exact (hvalue path hp).2

/-- A disk with a plugin that has nothing but a manifest, and one whose manifest has no name. -/
def market : Disk where
  root := .directory [("p", .directory
    [("plugin.json", .file "\x7b\"name\":\"x\"\x7d".toUTF8.toList)]),
    ("q", .directory [("plugin.json", .file "\x7b\x7d".toUTF8.toList)])]
  current := []

/-- A sweep over a plugin without a name, a plugin that is given twice, and a path where there is
nothing keeps them apart: the second and the third entry have results, the others have words for
what is wrong. -/
theorem sweep_keeps_apart_market : plainAnalyzer.config.workers = .int 1 ∧
    (∀ path ∈ (["/q", "/p", "/p", "/r"] : List Text), plainAnalyzer.Settles market path) ∧
    ∃ entries : List BatchEntry,
      (∀ (s : Schedule) (m : Int) (given : Option Int),
        (plainAnalyzer.withPool s m).analyzeMany market ["/q", "/p", "/p", "/r"]
          (given.map .int) = .ok entries) ∧
        entries.map (·.result.isSome) = [false, true, true, false] := by
  have hq : plainAnalyzer.analyze market "/q" = .error (.manifest (.noName "/q/plugin.json")) := by
    decide +kernel
  have hr : plainAnalyzer.analyze market "/r" = .error (.manifest (.noDirectory "/r")) := by
    decide +kernel
  obtain ⟨result, hp⟩ : ∃ result, plainAnalyzer.analyze market "/p" = .ok result :=
    Attempt.exists_of_isOk (by decide +kernel)
  have hsettles : ∀ path ∈ (["/q", "/p", "/p", "/r"] : List Text),
      plainAnalyzer.Settles market path := by
    intro path h
    simp only [List.mem_cons, List.not_mem_nil, or_false] at h
    rcases h with rfl | rfl | rfl | rfl
    · exact .inr ⟨_, hq⟩
    · exact .inl ⟨_, hp⟩
    · exact .inl ⟨_, hp⟩
    · exact .inr ⟨_, hr⟩
  obtain ⟨entries, h⟩ := sweep_keeps_apart plainAnalyzer market ["/q", "/p", "/p", "/r"] rfl
    hsettles
  refine ⟨rfl, hsettles, entries, fun s m given => (h s m given).1, ?_⟩
  have hcomputed : ((plainAnalyzer.withPool .inTurn 1).analyzeMany market ["/q", "/p", "/p", "/r"]
      none).map (·.map (·.result.isSome)) = .ok [false, true, true, false] := by
    decide +kernel
  have hentries : (plainAnalyzer.withPool .inTurn 1).analyzeMany market ["/q", "/p", "/p", "/r"]
      none = .ok entries := (h .inTurn 1 none).1
  rw [hentries] at hcomputed
  exact Except.ok.inj hcomputed

end SurfaceAudit
