import SurfaceAudit.Proofs.Grades
import SurfaceAudit.Proofs.Resolution

/-!
# The gate

A configuration that is loaded has no threshold, or one of the two verdicts that restrict something
(`Config.exists_threshold`). If its surfaces are a list of texts, the gate is decided by the
evidence that is reported (`gate_decides_on_evidence`), since each verdict is that of some evidence.
The surfaces are not looked at when the configuration is loaded, though, so that names of no surface
are let in, and values that are no list (`gate_open_iff`). A gate with such surfaces lets everything
through, or cannot be decided (`misspelled_gate_open`).
-/

namespace SurfaceAudit

namespace Verdict

/-- A verdict is found by its name. -/
theorem ofText?_name (v : Verdict) : ofText? v.name = some v := by cases v <;> decide

/-- A value that is the name of a verdict names it. -/
@[simp] theorem ofValue_name (v : Verdict) : ofValue (.text v.name) = .ok v := by
  unfold ofValue
  rw [Value.text?, Option.bind_some, ofText?_name]

/-- Nothing is more restrictive than incompatible. -/
theorem le_incompatible (v : Verdict) : v ≤ incompatible := by cases v <;> decide

/-- The name of a verdict is not empty. -/
theorem isTrue_name (v : Verdict) : (Value.text v.name).isTrue = true := by cases v <;> decide

end Verdict

namespace Evidence

/-- The verdict of some evidence on a surface reaches a verdict that restricts something exactly if
that of some piece does. -/
theorem le_verdicts_on_iff {es : List Evidence} {t : Target} {v : Verdict} (hv : v ≠ .compatible) :
    v ≤ (verdicts es).on t ↔ ∃ e ∈ es, v ≤ e.impact.on t := by
  constructor
  · intro h
    have hrestricts : (verdicts es).on t ≠ .compatible := fun hc =>
      hv (Verdict.le_antisymm (hc ▸ h) (Verdict.compatible_le v))
    obtain ⟨e, he, heq⟩ := exists_on_eq hrestricts
    exact ⟨e, he, heq ▸ h⟩
  · rintro ⟨e, he, h⟩
    exact Verdict.le_trans h (on_le_verdicts he t)

end Evidence

namespace Config

variable {e : Environment} {d : Disk} {path upper : Value} {c : Config} {i : Impact}
  {names : List Text} {threshold : Verdict} {threshold? : Option Verdict}

/-- The setting for a threshold, which is null without one. -/
def thresholdValue : Option Verdict → Value
  | none => .null
  | some threshold => .text threshold.name

/-- A check lets a setting through exactly if it is null or names a verdict that restricts
something. -/
theorem checkThreshold_eq_ok_iff {v : Value} :
    checkThreshold v = .ok () ↔
      ∃ threshold?, threshold? ≠ some .compatible ∧ v = thresholdValue threshold? := by
  constructor
  · intro h
    -- A value that is let through is null or one of two texts, and each of them is the value of a
    -- threshold.
    unfold checkThreshold at h
    split at h
    · exact ⟨none, by simp, rfl⟩
    · split at h
      · rename_i hname
        rw [Bool.or_eq_true, Value.isText_iff, Value.isText_iff] at hname
        rcases hname with rfl | rfl
        · exact ⟨some .needsReview, by decide, rfl⟩
        · exact ⟨some .incompatible, by decide, rfl⟩
      · cases hs : v.shown <;> simp [hs, Except.bind] at h
  · rintro ⟨threshold?, hne, rfl⟩
    rcases threshold? with - | threshold
    · rfl
    · cases threshold with
      | compatible => exact absurd rfl hne
      | needsReview => rfl
      | incompatible => rfl

/-- A configuration that is loaded has no threshold, or one that restricts something. -/
theorem exists_threshold (h : load e d path upper = .ok c) :
    ∃ threshold?, threshold? ≠ some .compatible ∧ c.gate.failOn = thresholdValue threshold? := by
  rw [load_eq] at h
  obtain ⟨settings, -, h⟩ := Attempt.bind_eq_ok_iff.mp h
  obtain ⟨c', -, h⟩ := Attempt.bind_eq_ok_iff.mp h
  obtain ⟨⟨⟩, hcheck, h⟩ := Attempt.bind_eq_ok_iff.mp h
  cases h
  exact checkThreshold_eq_ok_iff.mp hcheck

/-- Without a threshold nothing fails. -/
theorem gateFailures_of_null (h : c.gate.failOn = .null) : c.gateFailures i = .ok [] := by
  unfold gateFailures
  rw [h]
  rfl

/-- With a threshold those of the surfaces of the gate fail on which the verdict reaches it. -/
theorem gateFailures_of_threshold (h : c.gate.failOn = .text threshold.name) :
    c.gateFailures i = c.gateTargets.map fun ts =>
      (ts.filter fun t => decide (threshold ≤ i.on t)).map fun t => (t, i.on t) := by
  unfold gateFailures
  rw [h, if_pos threshold.isTrue_name, Verdict.ofValue_name]
  cases c.gateTargets <;> rfl

/-- The names of the surfaces of a gate, as they are written in the configuration. -/
def gateNames (c : Config) : Attempt (List Text) :=
  c.gate.targets.elements >>= fun vs => vs.mapM Value.shown

/-- The surfaces of a gate are all of them, or if it has any setting for them, those whose names are
written there. -/
theorem gateTargets_eq : c.gateTargets =
    if c.gate.targets.isTrue then
      c.gateNames.map fun names => Target.all.filter fun t => names.contains t.name
    else .ok Target.all := by
  unfold gateTargets gateNames
  split
  · cases c.gate.targets.elements with
    | error f => rfl
    | ok vs => cases vs.mapM Value.shown <;> rfl
  · rfl

section Texts

/-- A surface counts for a gate with given names: it has one of them, or there are none. -/
def Counts (names : List Text) (t : Target) : Prop := names = [] ∨ t.name ∈ names

instance (names : List Text) (t : Target) : Decidable (Counts names t) :=
  inferInstanceAs (Decidable (_ ∨ _))

/-- An impact fails a gate on a surface: the surface counts, and the verdict there reaches the
threshold, if there is one. -/
def Fails (threshold? : Option Verdict) (names : List Text) (i : Impact) (t : Target) : Prop :=
  Counts names t ∧ ∃ threshold ∈ threshold?, threshold ≤ i.on t

instance (threshold? : Option Verdict) (names : List Text) (i : Impact) (t : Target) :
    Decidable (Fails threshold? names i t) :=
  inferInstanceAs (Decidable (_ ∧ _))

/-- A list of texts gives its members as names. -/
theorem gateNames_of_texts (h : c.gate.targets = .list (names.map .text)) :
    c.gateNames = .ok names := by
  unfold gateNames
  rw [h]
  exact Attempt.mapM_eq_ok_iff.mpr (by simp [List.forall₂_map_left_iff, List.forall₂_same])

/-- The surfaces of a gate with a list of texts for them are those that count. -/
theorem gateTargets_of_texts (h : c.gate.targets = .list (names.map .text)) :
    c.gateTargets = .ok (Target.all.filter fun t => decide (Counts names t)) := by
  rw [gateTargets_eq, gateNames_of_texts h, h]
  cases names with
  | nil => rfl
  | cons name r =>
    rw [if_pos (by rfl)]
    simp [Counts, Except.map]

/-- The failures of an impact at a gate with a list of texts are the surfaces on which it fails,
each with its verdict. -/
theorem gateFailures_of_texts (hon : c.gate.failOn = thresholdValue threshold?)
    (h : c.gate.targets = .list (names.map .text)) (i : Impact) :
    c.gateFailures i = .ok ((Target.all.filter fun t => decide (Fails threshold? names i t)).map
      fun t => (t, i.on t)) := by
  cases threshold? with
  | none => simp [gateFailures_of_null hon, Fails]
  | some threshold =>
    rw [gateFailures_of_threshold hon, gateTargets_of_texts h]
    simp [Fails, Except.map, List.filter_filter, Bool.and_comm]

/-- If an impact fails a second gate wherever it fails a first one, the failures at the first are
among those at the second, in order. -/
theorem sublist_of_fails {names' : List Text} {threshold?' : Option Verdict}
    (h : ∀ t, Fails threshold? names i t → Fails threshold?' names' i t) :
    ((Target.all.filter fun t => decide (Fails threshold? names i t)).map
      fun t => (t, i.on t)).Sublist
    ((Target.all.filter fun t => decide (Fails threshold?' names' i t)).map
      fun t => (t, i.on t)) :=
  (List.monotone_filter_right Target.all fun t => by simpa using h t).map _

end Texts

section Shapes

/-- With a threshold, an impact that is incompatible with every surface fails on all surfaces of the
gate. -/
theorem gateFailures_of_incompatible (hon : c.gate.failOn = .text threshold.name)
    (hi : ∀ t, i.on t = .incompatible) :
    c.gateFailures i = c.gateTargets.map fun ts => ts.map fun t => (t, .incompatible) := by
  rw [gateFailures_of_threshold hon]
  simp only [hi, Verdict.le_incompatible, decide_true, List.filter_true]

/-- Without a setting for the surfaces it fails on all of them. -/
theorem gateFailures_of_not_isTrue (hon : c.gate.failOn = .text threshold.name)
    (hi : ∀ t, i.on t = .incompatible) (h : c.gate.targets.isTrue = false) :
    c.gateFailures i = .ok (Target.all.map fun t => (t, .incompatible)) := by
  rw [gateFailures_of_incompatible hon hi, gateTargets_eq, h]
  rfl

/-- With a setting it fails on the surfaces whose names are written there. -/
theorem gateFailures_of_isTrue (hon : c.gate.failOn = .text threshold.name)
    (hi : ∀ t, i.on t = .incompatible) (h : c.gate.targets.isTrue = true) :
    c.gateFailures i = c.gateNames.map fun names =>
      (Target.all.filter fun t => names.contains t.name).map fun t => (t, .incompatible) := by
  rw [gateFailures_of_incompatible hon hi, gateTargets_eq, if_pos h]
  cases c.gateNames <;> rfl

/-- A text gives its characters as names. -/
theorem gateNames_of_text {t : Text} (h : c.gate.targets = .text t) :
    c.gateNames = .ok (t.map fun p => [p]) := by
  unfold gateNames
  rw [h]
  refine Attempt.mapM_eq_ok_iff.mpr ?_
  rw [List.forall₂_map_left_iff, List.forall₂_map_right_iff, List.forall₂_same]
  exact fun p _ => rfl

/-- A character is not the name of a surface. -/
theorem name_notMem_characters (t : Text) (target : Target) :
    target.name ∉ t.map fun p => [p] := by
  intro hmem
  obtain ⟨p, -, hsingle⟩ := List.mem_map.mp hmem
  have hlength := congrArg List.length hsingle
  rw [List.length_singleton] at hlength
  cases target <;> exact absurd hlength (by decide)

end Shapes

end Config

open Config

/-- The gate of a configuration that is loaded, if its surfaces are a list of texts, decides about
every result of an analysis by the evidence there: a surface fails exactly if it counts and some
evidence reaches the threshold there. The surfaces that fail are in order, each once and with its
verdict. Their order and number in the configuration do not matter, and neither a milder threshold
nor further surfaces take a failure away. -/
theorem gate_decides_on_evidence {e : Environment} {d : Disk} {path upper : Value} {c : Config}
    {names : List Text} {a : Analyzer} {d' : Disk} {plugin : Text} {r : Result}
    (hc : load e d path upper = .ok c) (hnames : c.gate.targets = .list (names.map .text))
    (hr : a.analyze d' plugin = .ok r) :
    ∃ threshold?, threshold? ≠ some .compatible ∧ c.gate.failOn = thresholdValue threshold? ∧
      ∃ fs, c.gateFailures r.analyzed = .ok fs ∧
        (fs.map (·.1)).Sublist Target.all ∧ (∀ f ∈ fs, f.2 = r.analyzed.on f.1) ∧
        (∀ t, t ∈ fs.map (·.1) ↔
          Counts names t ∧ ∃ threshold ∈ threshold?, ∃ e ∈ r.evidence, threshold ≤ e.impact.on t) ∧
        (fs = [] ↔ ∀ threshold ∈ threshold?, ∀ e ∈ r.evidence, ∀ t, Counts names t →
          ¬threshold ≤ e.impact.on t) ∧
        (∀ (c' : Config) (names' : List Text), (∀ name, name ∈ names' ↔ name ∈ names) →
          c'.gate = ⟨c.gate.failOn, .list (names'.map .text)⟩ →
          c'.gateFailures r.analyzed = .ok fs) ∧
        (∀ c' : Config, threshold? = some .incompatible →
          c'.gate = ⟨thresholdValue (some .needsReview), c.gate.targets⟩ →
          ∃ fs', c'.gateFailures r.analyzed = .ok fs' ∧ fs.Sublist fs') ∧
        ∀ (c' : Config) (names' : List Text), names ≠ [] → (∀ name ∈ names, name ∈ names') →
          c'.gate = ⟨c.gate.failOn, .list (names'.map .text)⟩ →
          ∃ fs', c'.gateFailures r.analyzed = .ok fs' ∧ fs.Sublist fs' := by
  obtain ⟨threshold?, hne, hon⟩ := exists_threshold hc
  -- The verdict of a surface is the worst of its evidence, so it reaches the threshold exactly if
  -- some evidence does.
  have hfails (t : Target) : Fails threshold? names r.analyzed t ↔
      Counts names t ∧ ∃ threshold ∈ threshold?, ∃ e ∈ r.evidence, threshold ≤ e.impact.on t := by
    obtain ⟨contents, found, notes, -, rfl⟩ := Analyzer.exists_of_analyze hr
    refine and_congr_right' (exists_congr fun threshold => and_congr_right fun hth => ?_)
    exact Evidence.le_verdicts_on_iff fun h => hne (h ▸ hth)
  refine ⟨threshold?, hne, hon, _, gateFailures_of_texts hon hnames r.analyzed, ?_, ?_, ?_, ?_, ?_,
    ?_, ?_⟩
  · rw [List.map_map]
    exact (List.map_id _).symm ▸ List.filter_sublist
  · intro f hf
    obtain ⟨t, -, rfl⟩ := List.mem_map.mp hf
    rfl
  · intro t
    rw [← hfails]
    simp [Target.mem_all]
  · rw [List.map_eq_nil_iff, List.filter_eq_nil_iff]
    constructor
    · intro h threshold hth e he t hcounts hreaches
      have hfail := (hfails t).mpr ⟨hcounts, threshold, hth, e, he, hreaches⟩
      exact h t t.mem_all (decide_eq_true hfail)
    · intro h t _ hfail
      obtain ⟨hcounts, threshold, hth, e, he, hreaches⟩ := (hfails t).mp (of_decide_eq_true hfail)
      exact h threshold hth e he t hcounts hreaches
  · intro c' names' hsame hgate
    have hcounts (t : Target) : Counts names' t ↔ Counts names t := by
      unfold Counts
      rw [hsame, List.eq_nil_iff_forall_not_mem, List.eq_nil_iff_forall_not_mem]
      simp only [hsame]
    have hon' : c'.gate.failOn = thresholdValue threshold? := by rw [hgate, hon]
    have hnames' : c'.gate.targets = .list (names'.map .text) := by rw [hgate]
    rw [gateFailures_of_texts hon' hnames']
    refine congrArg Except.ok (congrArg _ (List.filter_congr fun t _ => decide_eq_decide.mpr ?_))
    unfold Fails
    rw [hcounts]
  · rintro c' rfl hgate
    have hon' : c'.gate.failOn = thresholdValue (some .needsReview) := by rw [hgate]
    have hnames' : c'.gate.targets = .list (names.map .text) := by rw [hgate, hnames]
    refine ⟨_, gateFailures_of_texts hon' hnames' r.analyzed, sublist_of_fails fun t => ?_⟩
    rintro ⟨hcounts, threshold, ⟨⟩, hreaches⟩
    exact ⟨hcounts, .needsReview, rfl, Verdict.le_trans (by decide) hreaches⟩
  · intro c' names' hsome hmore hgate
    have hon' : c'.gate.failOn = thresholdValue threshold? := by rw [hgate, hon]
    have hnames' : c'.gate.targets = .list (names'.map .text) := by rw [hgate]
    refine ⟨_, gateFailures_of_texts hon' hnames' r.analyzed, sublist_of_fails fun t => ?_⟩
    rintro ⟨hcounts, hreaches⟩
    exact ⟨.inr (hmore _ (hcounts.resolve_left hsome)), hreaches⟩

/-- A command line with a gate for the local environment, which is given twice. -/
def guarded : Value :=
  named [("gate", named [("fail_on", .text Verdict.incompatible.name),
    ("targets", .list ([Target.code.name, Target.code.name].map .text))])]

/-- The gate on the command line is that of the configuration. -/
theorem exists_load_guarded : ∃ c, load {} bare .null guarded = .ok c ∧
    c.gate = ⟨.text Verdict.incompatible.name,
      .list ([Target.code.name, Target.code.name].map .text)⟩ :=
  ⟨_, rfl, rfl⟩

/-- The gate on the command line stops the plugin for the shared workspace alone, since some
evidence has it incompatible with the local environment. -/
theorem gate_decides_on_evidence_narrow : ∃ c r, load {} bare .null guarded = .ok c ∧
    c.gate.targets = .list ([Target.code.name, Target.code.name].map .text) ∧
    bundledAnalyzer.analyze narrowDisk "/p" = .ok r ∧
    c.gateFailures r.analyzed = .ok [(.code, .incompatible)] ∧
    ∃ e ∈ r.evidence, e.impact.on .code ≠ .compatible := by
  obtain ⟨c, hc, hgate⟩ := exists_load_guarded
  obtain ⟨r, hr, hverdicts⟩ := Attempt.map_eq_ok_iff.mp
    (show (bundledAnalyzer.analyze narrowDisk "/p").map (·.analyzed) =
      .ok ⟨.incompatible, .compatible, .incompatible⟩ by decide +kernel)
  have hnames : c.gate.targets = .list ([Target.code.name, Target.code.name].map .text) := by
    rw [hgate]
  -- The failure that is computed is the one that the theorem speaks of; the evidence for it is
  -- taken from there.
  have hfailures : c.gateFailures r.analyzed = .ok [(.code, .incompatible)] := by
    have hon : c.gate.failOn = thresholdValue (some .incompatible) := by
      rw [hgate]
      rfl
    rw [hverdicts, gateFailures_of_texts hon hnames]
    decide
  obtain ⟨threshold?, hne, -, fs, hfs, -, -, hmem, -⟩ := gate_decides_on_evidence hc hnames hr
  cases hfailures.symm.trans hfs
  obtain ⟨-, threshold, hth, e, he, hreaches⟩ := (hmem .code).mp (by simp)
  refine ⟨c, r, hc, hnames, hr, hfailures, e, he, fun hcompatible => hne ?_⟩
  rw [hcompatible] at hreaches
  rw [Verdict.le_antisymm hreaches threshold.compatible_le] at hth
  exact hth

/-- The gate of a configuration that is loaded, if it has a threshold, stops an impact that is
incompatible with every surface if its surfaces have no setting, or if one of the names written
there is that of a surface. If there is a setting and no name is that of a surface, as in a text,
which is taken apart into characters, the gate lets the impact through; and if the setting has no
names, it is at fault. -/
theorem gate_open_iff {e : Environment} {d : Disk} {path upper : Value} {c : Config} {i : Impact}
    (hc : load e d path upper = .ok c) (hon : c.gate.failOn ≠ .null)
    (hi : ∀ t, i.on t = .incompatible) :
    ((∃ fs, c.gateFailures i = .ok fs ∧ fs ≠ []) ↔ c.gate.targets.isTrue = false ∨
      ∃ names, c.gateNames = .ok names ∧ ∃ t : Target, t.name ∈ names) ∧
    (c.gateFailures i = .ok [] ↔ c.gate.targets.isTrue = true ∧
      ∃ names, c.gateNames = .ok names ∧ ∀ t : Target, t.name ∉ names) ∧
    (∀ f, c.gateFailures i = .error f ↔ c.gate.targets.isTrue = true ∧ c.gateNames = .error f) ∧
    (∀ t ≠ [], c.gate.targets = .text t → c.gateFailures i = .ok []) ∧
    ∀ names, c.gate.targets = .list (names.map .text) →
      ((∃ fs, c.gateFailures i = .ok fs ∧ fs ≠ []) ↔
        names = [] ∨ ∃ t : Target, t.name ∈ names) := by
  obtain ⟨threshold?, -, hvalue⟩ := exists_threshold hc
  rcases threshold? with - | threshold
  · exact absurd hvalue hon
  -- Without a setting for the surfaces all of them count, and with one those that it names.
  have hstops : (∃ fs, c.gateFailures i = .ok fs ∧ fs ≠ []) ↔ c.gate.targets.isTrue = false ∨
      ∃ names, c.gateNames = .ok names ∧ ∃ t : Target, t.name ∈ names := by
    cases htrue : c.gate.targets.isTrue with
    | false => simp [gateFailures_of_not_isTrue hvalue hi htrue, Target.all]
    | true =>
      rw [gateFailures_of_isTrue hvalue hi htrue]
      cases c.gateNames with
      | error f => simp [Except.map]
      | ok names => simp [Except.map, Target.mem_all]
  have hopens : c.gateFailures i = .ok [] ↔ c.gate.targets.isTrue = true ∧
      ∃ names, c.gateNames = .ok names ∧ ∀ t : Target, t.name ∉ names := by
    cases htrue : c.gate.targets.isTrue with
    | false => simp [gateFailures_of_not_isTrue hvalue hi htrue, Target.all]
    | true =>
      rw [gateFailures_of_isTrue hvalue hi htrue]
      cases c.gateNames with
      | error f => simp [Except.map]
      | ok names => simp [Except.map, Target.mem_all]
  have hfaults (f : Fault) : c.gateFailures i = .error f ↔
      c.gate.targets.isTrue = true ∧ c.gateNames = .error f := by
    cases htrue : c.gate.targets.isTrue with
    | false => simp [gateFailures_of_not_isTrue hvalue hi htrue]
    | true => simp [gateFailures_of_isTrue hvalue hi htrue, Attempt.map_eq_error_iff]
  refine ⟨hstops, hopens, hfaults, fun t hne ht => ?_, fun names hnames => ?_⟩
  · refine hopens.mpr ⟨?_, _, gateNames_of_text ht, name_notMem_characters t⟩
    rw [ht]
    simpa [Value.isTrue] using hne
  · rw [hstops, gateNames_of_texts hnames, hnames]
    simp [Value.isTrue]

/-- The gate on the command line stops what is incompatible with every surface. -/
theorem gate_open_iff_guarded : ∃ c, load {} bare .null guarded = .ok c ∧ c.gate.failOn ≠ .null ∧
    (∀ t, (⟨.incompatible, .incompatible, .incompatible⟩ : Impact).on t = .incompatible) ∧
    ∃ fs, c.gateFailures ⟨.incompatible, .incompatible, .incompatible⟩ = .ok fs ∧ fs ≠ [] := by
  obtain ⟨c, hc, hgate⟩ := exists_load_guarded
  have hon : c.gate.failOn ≠ .null := by simp [hgate]
  have hi (t : Target) :
      (⟨.incompatible, .incompatible, .incompatible⟩ : Impact).on t = .incompatible := by
    cases t <;> rfl
  obtain ⟨-, -, -, -, htexts⟩ := gate_open_iff hc hon hi
  exact ⟨c, hc, hon, hi, (htexts _ (by rw [hgate])).mpr (.inr ⟨.code, by decide⟩)⟩

/-- A disk with a file of settings in which the name of a surface is misspelled. -/
def misspelled : Disk :=
  ⟨.directory [("compat-scanner.yaml", .file "gate:\n  targets: [claude-destkop]\n".toUTF8.toList)],
    []⟩

/-- A disk with a file of settings in which a number stands for the surfaces. -/
def numbered : Disk :=
  ⟨.directory [("compat-scanner.yaml", .file "gate:\n  targets: 5\n".toUTF8.toList)], []⟩

/-- With the misspelled name the gate has a threshold, and lets through what is incompatible with
every surface; and with the number it cannot be decided. -/
theorem misspelled_gate_open :
    (∃ c, load {} misspelled .null .null = .ok c ∧ c.gate.failOn ≠ .null ∧
      c.gateFailures ⟨.incompatible, .incompatible, .incompatible⟩ = .ok []) ∧
    ∃ c, load {} numbered .null .null = .ok c ∧ c.gate.failOn ≠ .null ∧
      c.gateFailures ⟨.incompatible, .incompatible, .incompatible⟩ =
        .error (.kind (.notIterable "int")) := by
  have hmisspelled : (load {} misspelled .null .null).map (fun c => (c.gate.failOn.isNull,
      c.gateFailures ⟨.incompatible, .incompatible, .incompatible⟩)) = .ok (false, .ok []) := by
    decide +kernel
  have hnumbered : (load {} numbered .null .null).map (fun c => (c.gate.failOn.isNull,
      c.gateFailures ⟨.incompatible, .incompatible, .incompatible⟩)) =
        .ok (false, .error (.kind (.notIterable "int"))) := by
    decide +kernel
  -- The threshold is shown to be there by a test, since equality of values is not decided.
  have hnull {v : Value} (h : v.isNull = false) : v ≠ .null := by
    rintro rfl
    cases h
  constructor
  · obtain ⟨c, hc, hpair⟩ := Attempt.map_eq_ok_iff.mp hmisspelled
    obtain ⟨hon, hfailures⟩ := Prod.mk.inj hpair
    exact ⟨c, hc, hnull hon, hfailures⟩
  · obtain ⟨c, hc, hpair⟩ := Attempt.map_eq_ok_iff.mp hnumbered
    obtain ⟨hon, hfailures⟩ := Prod.mk.inj hpair
    exact ⟨c, hc, hnull hon, hfailures⟩

end SurfaceAudit
