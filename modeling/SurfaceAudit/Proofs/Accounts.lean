import SurfaceAudit.Program
import SurfaceAudit.Proofs.Gate

/-!
# The accounts of a sweep

The report on a sweep is kept entry by entry, and each entry keeps the accounts in agreement with
the entries so far (`Report.Keeps.enter`), so that those of the whole report agree with all of them
(`Report.keeps_of_foldlM`). The code of a sweep is found in a second loop, which keeps it only over
results that pass the gate (`Program.Scan.codeAfter_eq_zero_iff`). Both loops ask the same gate, so
the code is zero exactly if the accounts have neither an entry without a result nor a failure
(`Report.GivesAccount.passes_iff`).
-/

namespace SurfaceAudit

namespace Attempt

variable {σ α : Type} {f : σ → α → Attempt σ}

/-- What every step of a loop keeps is kept by the loop. -/
theorem foldlM_invariant {p : List α → σ → Prop}
    (hstep : ∀ done s a s', p done s → f s a = .ok s' → p (done ++ [a]) s') {xs : List α}
    {s s' : σ} (hp : p [] s) (h : xs.foldlM f s = .ok s') : p xs s' := by
  suffices hgeneral : ∀ done s, p done s → xs.foldlM f s = .ok s' → p (done ++ xs) s' from
    hgeneral [] s hp h
  clear hp h
  induction xs with
  | nil =>
    intro done s hp h
    cases h
    rwa [List.append_nil]
  | cons a r ih =>
    intro done s hp h
    rw [List.foldlM_cons] at h
    obtain ⟨s₁, ha, h⟩ := bind_eq_ok_iff.mp h
    have hr := ih (done ++ [a]) s₁ (hstep done s a s₁ hp ha) h
    rwa [List.append_assoc] at hr

/-- A loop whose steps all come to an end comes to an end. -/
theorem exists_foldlM_eq_ok {xs : List α} (h : ∀ s, ∀ a ∈ xs, ∃ s', f s a = .ok s') (s : σ) :
    ∃ s', xs.foldlM f s = .ok s' := by
  induction xs generalizing s with
  | nil => exact ⟨s, rfl⟩
  | cons a r ih =>
    obtain ⟨s₁, ha⟩ := h s a List.mem_cons_self
    obtain ⟨s', hr⟩ := ih (fun s b hb => h s b (List.mem_cons_of_mem a hb)) s₁
    exact ⟨s', by rw [List.foldlM_cons, ha]; exact hr⟩

end Attempt

namespace Value

/-- What a value holds under names, one inside the other. -/
def at? : Value → List Text → Option Value
  | v, [] => some v
  | v, name :: r => (v.entries?.bind fun es => lookup es name).bind fun w => w.at? r

end Value

namespace Report

variable {c : Config} {time : Text} {es : List BatchEntry} {e : BatchEntry} {a a' : Accounts}

/-- The report on a plugin says that it fails the gate. -/
def hasFailed (scan : Value) : Bool :=
  match scan.at? ["gate", "passed"] with
  | some (.bool passed) => !passed
  | _ => false

/-- An entry passes: it has a result, and nothing in that fails the gate. -/
def Passes (c : Config) (e : BatchEntry) : Prop :=
  ∃ r, e.result = some r ∧ c.gateFailures r.analyzed = .ok []

/-- A report in the accounts of a sweep is that on an entry. -/
structure IsScan (c : Config) (time : Text) (e : BatchEntry) (scan : Value) : Prop where
  /-- On a result it is the report on that plugin alone, which says whether it passes. -/
  result : ∀ r, e.result = some r → document c time r e.path = .ok scan ∧
    ∃ fs, c.gateFailures r.analyzed = .ok fs ∧ scan.at? ["gate", "passed"] = some (.bool fs.isEmpty)
  /-- Without a result it has the words for what is wrong, and the gate has no say. -/
  error : e.result = none → scan.at? ["metadata", "plugin_path"] = some (.text e.path) ∧
    scan.at? ["error"] = some ((e.error.map Value.text).getD .null) ∧ scan.at? ["gate"] = none

/-- The gate can be asked about every result, if its threshold can be one and its surfaces are a
list of texts. -/
theorem exists_gate {threshold? : Option Verdict} {names : List Text}
    (hon : c.gate.failOn = Config.thresholdValue threshold?)
    (hnames : c.gate.targets = .list (names.map .text)) (r : Result) : ∃ g, gate c r = .ok g := by
  unfold gate
  rw [Config.gateFailures_of_texts hon hnames, Config.gateTargets_of_texts hnames]
  exact ⟨_, rfl⟩

/-- The report on an entry without a result is one in the accounts. -/
theorem isScan_errorDocument (h : e.result = none) : IsScan c time e (errorDocument e) where
  result r hr := absurd (h.symm.trans hr) (by simp)
  error _ := ⟨rfl, rfl, rfl⟩

/-- The gate, asked about a result, has the failures of that. -/
theorem gateFailures_of_gate {r : Result} {g : GateReport} (h : gate c r = .ok g) :
    c.gateFailures r.analyzed = .ok g.failures := by
  obtain ⟨fs, hfs, h⟩ := Attempt.bind_eq_ok_iff.mp h
  obtain ⟨ts, -, h⟩ := Attempt.bind_eq_ok_iff.mp h
  cases h
  exact hfs

/-- The report on a result is one in the accounts. -/
theorem isScan_resultDocument {r : Result} {g : GateReport} (h : e.result = some r)
    (hg : gate c r = .ok g) : IsScan c time e (resultDocument c time e.path r g) where
  result r' hr' := by
    cases h.symm.trans hr'
    refine ⟨?_, g.failures, gateFailures_of_gate hg, rfl⟩
    unfold document
    rw [hg]
    rfl
  error hnone := absurd (hnone.symm.trans h) (by simp)

/-- The number of entries with a verdict on a surface. -/
def count (es : List BatchEntry) (t : Target) (v : Verdict) : Nat :=
  es.countP fun e => e.result.any fun r => r.analyzed.on t == v

/-- The accounts agree with the entries so far. -/
structure Keeps (c : Config) (time : Text) (es : List BatchEntry) (a : Accounts) : Prop where
  /-- There is a report on each entry, in order. -/
  scans : List.Forall₂ (IsScan c time) es a.scans
  /-- The entries without a result are counted. -/
  errors : a.errors = es.countP (·.result.isNone)
  /-- The reports that say that a plugin fails are counted. -/
  gateFailures : a.gateFailures = a.scans.countP hasFailed
  /-- The results are counted by surface and verdict. -/
  verdicts : ∀ t v, a.verdicts t v = count es t v

/-- A further entry keeps the accounts in agreement. -/
theorem Keeps.enter (h : Keeps c time es a) (he : a.enter c time e = .ok a') :
    Keeps c time (es ++ [e]) a' := by
  unfold Accounts.enter at he
  -- A plugin without a result counts as an error and in no verdict; one with a result the other way
  -- round.
  cases hr : e.result with
  | none =>
    rw [hr] at he
    cases he
    refine ⟨List.rel_append h.scans (.cons (isScan_errorDocument hr) .nil), ?_, ?_, ?_⟩
    · simp [h.errors, hr]
    · rw [List.countP_append, ← h.gateFailures]
      rfl
    · simp [h.verdicts, count, hr]
  | some r =>
    rw [hr] at he
    obtain ⟨g, hg, he⟩ := Attempt.bind_eq_ok_iff.mp he
    cases he
    refine ⟨List.rel_append h.scans (.cons (isScan_resultDocument hr hg) .nil), ?_, ?_, ?_⟩
    · simp [h.errors, hr]
    · have hfailed : hasFailed (resultDocument c time e.path r g) = !g.passed := rfl
      rw [List.countP_append, ← h.gateFailures, List.countP_singleton, hfailed]
      cases g.passed <;> rfl
    · intro t v
      have hbefore := h.verdicts t v
      unfold count at hbefore ⊢
      rw [List.countP_append, ← hbefore, List.countP_singleton, hr]
      by_cases hv : r.analyzed.on t = v <;> simp [hv]

/-- The accounts that a loop over entries has kept agree with them. -/
theorem keeps_of_foldlM (h : es.foldlM (Accounts.enter c time) {} = .ok a) : Keeps c time es a :=
  Attempt.foldlM_invariant (fun _ _ _ _ hkeeps he => hkeeps.enter he)
    ⟨.nil, rfl, rfl, fun _ _ => rfl⟩ h

/-- If the gate can be asked about every result, accounts can be kept of all entries. -/
theorem exists_foldlM_enter (hgate : ∀ r, ∃ g, gate c r = .ok g) (time : Text)
    (es : List BatchEntry) : ∃ a, es.foldlM (Accounts.enter c time) {} = .ok a := by
  refine Attempt.exists_foldlM_eq_ok (fun a e _ => ?_) _
  unfold Accounts.enter
  cases e.result with
  | none => exact ⟨_, rfl⟩
  | some r =>
    obtain ⟨g, hg⟩ := hgate r
    simp only [hg]
    exact ⟨_, rfl⟩

/-- An entry passes exactly if it has a result and the report on it does not say that it fails. -/
theorem IsScan.passes_iff {scan : Value} (h : IsScan c time e scan) :
    Passes c e ↔ e.result.isNone = false ∧ hasFailed scan = false := by
  cases hr : e.result with
  | none => simp [Passes, hr]
  | some r =>
    obtain ⟨-, fs, hfs, hpassed⟩ := h.result r hr
    simp [Passes, hr, hasFailed, hfs, hpassed]

/-- All entries pass exactly if each has a result and no report on them says that it fails. -/
theorem forall_passes_iff {scans : List Value} (h : List.Forall₂ (IsScan c time) es scans) :
    (∀ e ∈ es, Passes c e) ↔
      (∀ e ∈ es, e.result.isNone = false) ∧ ∀ scan ∈ scans, hasFailed scan = false := by
  induction h with
  | nil => simp
  | cons hscan _ ih =>
    rw [List.forall_mem_cons, List.forall_mem_cons, List.forall_mem_cons, ih, hscan.passes_iff,
      and_and_and_comm]

/-- A report on a sweep gives account of its entries. -/
structure GivesAccount (c : Config) (time : Text) (es : List BatchEntry) (report : Value) :
    Prop where
  /-- There is a report on each entry, in order, and the failures are those that say so. -/
  scans : ∃ scans, report.at? ["scans"] = some (.list scans) ∧
    List.Forall₂ (IsScan c time) es scans ∧
    report.at? ["aggregate", "gate_failures"] = some (.int (scans.countP hasFailed))
  /-- All entries are counted. -/
  total : report.at? ["aggregate", "total_scans"] = some (.int es.length)
  /-- So are those with a result. -/
  analyzed : report.at? ["aggregate", "analyzed_count"] =
    some (.int (es.countP (·.result.isSome)))
  /-- So are those without one. -/
  errors : report.at? ["aggregate", "error_count"] = some (.int (es.countP (·.result.isNone)))
  /-- Each entry is one or the other. -/
  balance : es.length = es.countP (·.result.isSome) + es.countP (·.result.isNone)
  /-- On each surface the results are counted by their verdicts. -/
  verdicts : ∀ t v, report.at? ["aggregate", "by_target", Target.name t, Verdict.name v] =
    some (.int (count es t v))
  /-- On each surface they are all counted. -/
  sums : ∀ t, (Verdict.all.map (count es t)).sum = es.countP (·.result.isSome)

/-- Each entry has a result or none. -/
theorem length_eq_countP (es : List BatchEntry) :
    es.length = es.countP (·.result.isSome) + es.countP (·.result.isNone) := by
  rw [List.length_eq_countP_add_countP fun e => e.result.isSome]
  refine congrArg _ (List.countP_congr fun e _ => ?_)
  cases e.result <;> simp

/-- A result has one of the verdicts on each surface. -/
theorem sum_count (es : List BatchEntry) (t : Target) :
    (Verdict.all.map (count es t)).sum = es.countP (·.result.isSome) := by
  induction es with
  | nil => rfl
  | cons e r ih =>
    simp only [count, Verdict.all, List.map_cons, List.map_nil, List.sum_cons, List.sum_nil,
      List.countP_cons] at ih ⊢
    cases e.result with
    | none => simpa using ih
    | some result =>
      cases hv : result.analyzed.on t <;> simp [hv] <;> omega

/-- The report on a sweep gives account of its entries. -/
theorem givesAccount_of_sweepDocument {report : Value} (h : sweepDocument c time es = .ok report) :
    GivesAccount c time es report := by
  obtain ⟨a, ha, h⟩ := Attempt.bind_eq_ok_iff.mp h
  cases h
  have hkeeps := keeps_of_foldlM ha
  have hlength := length_eq_countP es
  refine ⟨⟨a.scans, rfl, hkeeps.scans, ?_⟩, rfl, ?_, ?_, hlength, fun t v => ?_, sum_count es⟩
  · rw [← hkeeps.gateFailures]
    rfl
  · have hanalyzed : (es.length - a.errors : Int) = es.countP (·.result.isSome) := by
      rw [hkeeps.errors, hlength]
      omega
    rw [← hanalyzed]
    rfl
  · rw [← hkeeps.errors]
    rfl
  · rw [← hkeeps.verdicts]
    cases t <;> cases v <;> rfl

/-- If the gate can be asked about every result, there is a report on every sweep. -/
theorem exists_sweepDocument (hgate : ∀ r, ∃ g, gate c r = .ok g) (time : Text)
    (es : List BatchEntry) : ∃ report, sweepDocument c time es = .ok report := by
  obtain ⟨a, ha⟩ := exists_foldlM_enter hgate time es
  unfold sweepDocument
  rw [ha]
  exact ⟨_, rfl⟩

/-- All entries pass exactly if the report on them counts neither an entry without a result nor a
failure. -/
theorem GivesAccount.passes_iff {report : Value} (h : GivesAccount c time es report) :
    (∀ e ∈ es, Passes c e) ↔ report.at? ["aggregate", "error_count"] = some (.int 0) ∧
      report.at? ["aggregate", "gate_failures"] = some (.int 0) := by
  obtain ⟨scans, -, hscans, hfailures⟩ := h.scans
  have hzero (n : Nat) : some (Value.int n) = some (.int 0) ↔ n = 0 := by simp
  rw [forall_passes_iff hscans, h.errors, hfailures, hzero, hzero, List.countP_eq_zero,
    List.countP_eq_zero]
  simp only [Bool.not_eq_true]

end Report

namespace Program.Scan

open Report

variable {s : Scan} {e : BatchEntry} {es : List BatchEntry} {code code' : Nat}

/-- A further entry keeps the code zero exactly if it passes. -/
theorem codeAfter_eq_zero_iff (h : s.codeAfter code e = .ok code') :
    (code' = 0 ↔ code = 0 ∧ Passes s.config e) ∧ (code ≤ 1 → code' ≤ 1) := by
  unfold codeAfter at h
  cases hr : e.result with
  | none =>
    rw [hr] at h
    cases h
    simp [Passes, hr]
  | some r =>
    rw [hr] at h
    obtain ⟨passed, hpassed, rfl⟩ := Attempt.map_eq_ok_iff.mp h
    obtain ⟨fs, hfs, rfl⟩ := Attempt.map_eq_ok_iff.mp hpassed
    cases fs <;> simp [Passes, hr, hfs]

/-- If the gate can be asked about every result, a sweep comes to a code. -/
theorem exists_foldlM_codeAfter (hgate : ∀ r, ∃ g, gate s.config r = .ok g)
    (es : List BatchEntry) : ∃ code, es.foldlM s.codeAfter 0 = .ok code := by
  refine Attempt.exists_foldlM_eq_ok (fun code e _ => ?_) _
  unfold codeAfter passes
  cases e.result with
  | none => exact ⟨1, rfl⟩
  | some r =>
    obtain ⟨g, hg⟩ := hgate r
    simp only [gateFailures_of_gate hg]
    exact ⟨_, rfl⟩

/-- The code of a sweep is zero exactly if all entries pass, and one otherwise. -/
theorem code_eq_zero_iff (h : es.foldlM s.codeAfter 0 = .ok code) :
    (code = 0 ↔ ∀ e ∈ es, Passes s.config e) ∧ code ≤ 1 := by
  refine Attempt.foldlM_invariant
    (p := fun done code => (code = 0 ↔ ∀ e ∈ done, Passes s.config e) ∧ code ≤ 1)
    (fun done code e code' hp he => ?_) (by simp) h
  obtain ⟨hzero, hle⟩ := codeAfter_eq_zero_iff he
  rw [hzero, hp.1, List.forall_mem_append, List.forall_mem_singleton]
  exact ⟨Iff.rfl, hle hp.2⟩

end Program.Scan

end SurfaceAudit
