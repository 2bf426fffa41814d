import SurfaceAudit.Proofs.Manifests
import SurfaceAudit.Proofs.Pooling
import SurfaceAudit.Proofs.Verdicts
import SurfaceAudit.Proofs.Walk
import SurfaceAudit.Rules.Bundled

/-!
# A file that is added improves nothing

When a plugin gains a file, what was read of its other files stays as it was (`Plugin.file_grown`),
and each file is scanned by itself, so that the scanners find what they found and perhaps more
(`Analyzer.survey_sublist`). More evidence makes no verdict better, and the gate fails on no fewer
surfaces (`Config.gateFailures_mono`). Only the manifest is looked for in two places, so it has to
stay where it is.
-/

namespace SurfaceAudit

/-- If each member of a list gives no more than what stands for it in a longer list, so does the
whole list. -/
theorem flatMap_sublist_of_forall₂ {α β γ : Type} {R R' : α → β → Prop} {g : β → List γ}
    {xs xs' : List α} {ys ys' : List β} (hxs : xs.Sublist xs') (h : List.Forall₂ R xs ys)
    (h' : List.Forall₂ R' xs' ys') (hg : ∀ x y y', R x y → R' x y' → (g y).Sublist (g y')) :
    (ys.flatMap g).Sublist (ys'.flatMap g) := by
  induction hxs generalizing ys ys' with
  | slnil =>
    cases h
    exact List.nil_sublist _
  | cons x _ ih =>
    obtain ⟨y', zs', -, hr', rfl⟩ := List.forall₂_cons_left_iff.mp h'
    rw [List.flatMap_cons]
    exact (ih h hr').trans (List.sublist_append_right _ _)
  | cons_cons x _ ih =>
    obtain ⟨y, zs, hy, hr, rfl⟩ := List.forall₂_cons_left_iff.mp h
    obtain ⟨y', zs', hy', hr', rfl⟩ := List.forall₂_cons_left_iff.mp h'
    rw [List.flatMap_cons, List.flatMap_cons]
    exact (hg x y y' hy hy').append (ih hr hr')

namespace Plugin

variable {content : List UInt8} {place : List Text} {d d' : Disk} {p : Plugin}

/-- A file that holds a text holds it still. -/
theorem Holds.grown {relative text : Text} (h : d.Gains content place d')
    (hc : p.Holds d relative text) : p.Holds d' relative text := by
  obtain ⟨bytes, hb, hs, hu⟩ := hc
  exact ⟨bytes, Disk.read_grown h hb, hs, hu⟩

/-- A file that was read is the same, unless its text could not be had. -/
theorem file_grown (h : d.Gains content place d') {relative : Text} {f f' : PluginFile}
    (hf : (p.file d relative).outcome = .ok f) (hf' : (p.file d' relative).outcome = .ok f') :
    f' = f ∨ f = { path := f'.path, kind := f'.kind } := by
  cases hk : p.kindOf relative with
  | error e =>
    have herror : (p.file d relative).outcome = .error e := by
      unfold file
      rw [hk]
      rfl
    rw [herror] at hf
    cases hf
  | ok kind =>
    rw [outcome_file p d hk] at hf
    rw [outcome_file p d' hk] at hf'
    by_cases ho : kind = .other
    · rw [if_pos ho] at hf hf'
      cases hf
      cases hf'
      exact .inl rfl
    rw [if_neg ho] at hf hf'
    -- A text that was read stays as it is; one that could not be had may be there now.
    rcases outcome_textOf_cases p d relative with ⟨e, -, ht⟩ | ⟨text, hc, ht⟩ | ⟨-, ht⟩
    · rw [ht] at hf
      cases hf
    · rw [ht] at hf
      rw [(hc.grown h).outcome_textOf] at hf'
      have heq := hf.symm.trans hf'
      cases heq
      exact .inl rfl
    · rw [ht] at hf
      cases hf
      right
      rcases outcome_textOf_cases p d' relative with ⟨e, -, ht'⟩ | ⟨text, -, ht'⟩ | ⟨-, ht'⟩
      · rw [ht'] at hf'
        cases hf'
      · rw [ht'] at hf'
        obtain ⟨hpath, hkind, -⟩ := of_outcome_fileWith hf'
        rw [hpath, hkind]
      · rw [ht'] at hf'
        cases hf'
        rfl

/-- The manifest is the same, if it stays where it is. -/
theorem manifest_grown (h : d.Gains content place d')
    (hp : p.manifestPlace? d' = p.manifestPlace? d) {m m' : Manifest}
    (hm : p.manifest d = .ok m) (hm' : p.manifest d' = .ok m') : m' = m := by
  obtain ⟨place, text, -, -, -, hs, -⟩ := hasUsableManifest_of_manifest hm
  obtain ⟨-, -, -, -, -, ⟨hd', -, -⟩, -⟩ := hasUsableManifest_of_manifest hm'
  have hs' : p.ManifestSpells d' place text := by
    obtain ⟨-, hplace, bytes, hb, hu⟩ := hs
    exact ⟨hd', hp.trans hplace, bytes, Disk.read_grown h hb, hu⟩
  have heq : p.manifest d' = p.manifest d := hs'.manifest_eq.trans hs.manifest_eq.symm
  rw [hm, hm'] at heq
  exact Except.ok.inj heq

/-- The files are listed as before, if the manifest stays where it is. -/
theorem collect_grown (h : d.Gains content place d')
    (hp : p.manifestPlace? d' = p.manifestPlace? d) {paths paths' : List Text}
    (hl : (p.collect d).outcome = .ok paths) (hl' : (p.collect d').outcome = .ok paths') :
    paths.Sublist paths' := by
  rw [outcome_collect, Attempt.bind_eq_ok_iff] at hl hl'
  obtain ⟨names, hn, hl⟩ := hl
  obtain ⟨names', hn', hl'⟩ := hl'
  cases hn.symm.trans hn'
  obtain ⟨skipped, hs, hl⟩ := Attempt.bind_eq_ok_iff.mp hl
  obtain ⟨skipped', hs', hl'⟩ := Attempt.bind_eq_ok_iff.mp hl'
  cases hs.symm.trans hs'
  obtain ⟨manifest, hm, rfl⟩ := Attempt.map_eq_ok_iff.mp hl
  obtain ⟨manifest', hm', rfl⟩ := Attempt.map_eq_ok_iff.mp hl'
  cases hm'.symm.trans (hp.trans hm)
  exact pathsIn_sublist p h skipped manifest

/-- The plugin at a path is the same, if it can be opened on both disks. -/
theorem open?_grown (h : d.Gains content place d') {path : Text} {s : FileSettings} {p' : Plugin}
    (hp : open? d path s = .ok p) (hp' : open? d' path s = .ok p') : p' = p := by
  obtain ⟨names, hn, hp⟩ := Attempt.bind_eq_ok_iff.mp hp
  obtain ⟨names', hn', hp'⟩ := Attempt.bind_eq_ok_iff.mp hp'
  rw [Disk.plainNames_eq h hn hn', hp] at hp'
  exact (Except.ok.inj hp').symm

end Plugin

namespace ScanTask

/-- The evidence that the scanners find in a file. -/
def evidenceIn (s : ScannerSettings) (rules : RuleTables) (f : PluginFile) : List Evidence :=
  (ofFile s rules f).1.flatMap (·.run.1)

/-- A file whose text could not be had is in no task that it would not be in with its text. -/
theorem ofFile_sublist (s : ScannerSettings) (rules : RuleTables) (f : PluginFile) :
    (ofFile s rules { path := f.path, kind := f.kind }).1.Sublist (ofFile s rules f).1 := by
  unfold ofFile
  cases f.kind with
  | script => exact (List.Sublist.refl _).append (List.nil_sublist _)
  | markdown => exact List.nil_sublist _
  | hooks => exact List.nil_sublist _
  | servers => exact List.nil_sublist _
  | other => exact List.nil_sublist _

/-- A file whose text could not be had has no evidence that it would not have with its text. -/
theorem evidenceIn_sublist (s : ScannerSettings) (rules : RuleTables) (f : PluginFile) :
    (evidenceIn s rules { path := f.path, kind := f.kind }).Sublist (evidenceIn s rules f) :=
  (ofFile_sublist s rules f).flatMap _

end ScanTask

namespace Analyzer

/-- What the scanners find is what they find in the manifest, and then in each file. -/
theorem scan_eq_evidenceIn {a : Analyzer} {c : Contents} {notes notes' : List Note}
    {found : List Evidence} (h : a.scan c notes = .ok (found, notes')) :
    found = (ScanTask.ofManifest a.config.scanners c.manifest).flatMap (·.run.1) ++
      c.files.flatMap (ScanTask.evidenceIn a.config.scanners a.rules) := by
  obtain ⟨workers, hw, -⟩ := Attempt.bind_eq_ok_iff.mp h
  rw [a.scan_eq c notes hw, Except.ok.injEq, Prod.mk.injEq] at h
  rw [← h.1]
  unfold tasks ScanTask.ofContents
  rw [List.flatMap_append, List.flatMap_assoc, List.flatMap_map]
  rfl

/-- A survey opens a plugin, reads its manifest, lists its files and reads them, and finds what the
scanners find in the manifest and the files. -/
theorem of_survey {a : Analyzer} {d : Disk} {path : Text} {c : Contents} {found : List Evidence}
    {notes : List Note} (h : a.survey d path = .ok (c, found, notes)) :
    ∃ p m paths files, Plugin.open? d path a.config.files = .ok p ∧ p.manifest d = .ok m ∧
      (p.collect d).outcome = .ok paths ∧
      List.Forall₂ (fun relative f => (p.file d relative).outcome = .ok f) paths files ∧
      found = (ScanTask.ofManifest a.config.scanners m).flatMap (·.run.1) ++
        files.flatMap (ScanTask.evidenceIn a.config.scanners a.rules) := by
  obtain ⟨p, hopen, hc, hscan⟩ := exists_of_survey h
  obtain ⟨hm, paths, hl, hf⟩ := Plugin.exists_of_outcome_contents hc
  exact ⟨p, _, paths, _, hopen, hm, hl, hf, scan_eq_evidenceIn hscan⟩

end Analyzer

namespace Config

/-- The gate fails on no fewer surfaces if the verdicts are no better. -/
theorem gateFailures_mono {c : Config} {i j : Impact} (h : ∀ t, i.on t ≤ j.on t)
    {fs : List (Target × Verdict)} (hf : c.gateFailures i = .ok fs) :
    ∃ gs, c.gateFailures j = .ok gs ∧ ∀ t ∈ fs.map (·.1), t ∈ gs.map (·.1) := by
  unfold gateFailures at hf ⊢
  split at hf
  · rename_i hon
    rw [if_pos hon]
    obtain ⟨threshold, hth, hf⟩ := Attempt.bind_eq_ok_iff.mp hf
    obtain ⟨targets, hts, hf⟩ := Attempt.bind_eq_ok_iff.mp hf
    cases hf
    refine ⟨_, Attempt.bind_eq_ok_iff.mpr ⟨threshold, hth,
      Attempt.bind_eq_ok_iff.mpr ⟨targets, hts, rfl⟩⟩, ?_⟩
    intro t ht
    simp only [List.map_map, List.mem_map, List.mem_filter, Function.comp_apply,
      decide_eq_true_eq] at ht ⊢
    -- The surfaces that count are the same, and a verdict at the threshold stays there if it gets
    -- worse.
    obtain ⟨u, ⟨hu, hle⟩, rfl⟩ := ht
    exact ⟨u, ⟨hu, Verdict.le_trans hle (h u)⟩, rfl⟩
  · rename_i hon
    rw [if_neg hon]
    cases hf
    exact ⟨[], rfl, fun t ht => absurd ht (by simp)⟩

end Config

namespace Analyzer

variable {content : List UInt8} {place : List Text} {d d' : Disk} {a : Analyzer} {path : Text}

/-- What the scanners find in a plugin they find still, in its order, if it gains a file. -/
theorem survey_sublist (h : d.Gains content place d')
    (hp : ∀ p, Plugin.open? d path a.config.files = .ok p →
      p.manifestPlace? d' = p.manifestPlace? d)
    {c c' : Contents} {found found' : List Evidence} {notes notes' : List Note}
    (hs : a.survey d path = .ok (c, found, notes))
    (hs' : a.survey d' path = .ok (c', found', notes')) : found.Sublist found' := by
  obtain ⟨p, m, paths, files, hopen, hm, hl, hf, hscan⟩ := of_survey hs
  obtain ⟨p', m', paths', files', hopen', hm', hl', hf', hscan'⟩ := of_survey hs'
  cases Plugin.open?_grown h hopen hopen'
  cases Plugin.manifest_grown h (hp p hopen) hm hm'
  have hpaths : paths.Sublist paths' := Plugin.collect_grown h (hp p hopen) hl hl'
  rw [hscan, hscan']
  refine (List.Sublist.refl _).append ?_
  refine flatMap_sublist_of_forall₂ hpaths hf hf' fun relative f f' hfile hfile' => ?_
  rcases Plugin.file_grown h hfile hfile' with rfl | heq
  · exact List.Sublist.refl _
  · rw [heq]
    exact ScanTask.evidenceIn_sublist _ _ f'

end Analyzer

/-- A file that is added to a plugin improves no verdict. If a disk gains a file at a free place,
the manifest in use stays where it is, and the plugin can be analysed before and after, then the
evidence before is among that after, in its order; no verdict is better than before, and the gate
fails on every surface on which it failed. -/
theorem added_file_improves_nothing (a : Analyzer) (d d' : Disk) (path : Text)
    (content : List UInt8) (place : List Text) (r r' : Result) (h : d.Gains content place d')
    (hp : ∀ p, Plugin.open? d path a.config.files = .ok p →
      p.manifestPlace? d' = p.manifestPlace? d)
    (hr : a.analyze d path = .ok r) (hr' : a.analyze d' path = .ok r') :
    r.evidence.Sublist r'.evidence ∧ (∀ t, r.analyzed.on t ≤ r'.analyzed.on t) ∧
      ∀ fs, a.config.gateFailures r.analyzed = .ok fs →
        ∃ fs', a.config.gateFailures r'.analyzed = .ok fs' ∧
          ∀ t ∈ fs.map (·.1), t ∈ fs'.map (·.1) := by
  obtain ⟨c, found, notes, hs, rfl⟩ := Analyzer.exists_of_analyze hr
  obtain ⟨c', found', notes', hs', rfl⟩ := Analyzer.exists_of_analyze hr'
  have hfound : found.Sublist found' := Analyzer.survey_sublist h hp hs hs'
  have hverdicts (t : Target) : (Analyzer.resultOf c found notes).analyzed.on t ≤
      (Analyzer.resultOf c' found' notes').analyzed.on t := by
    rw [Analyzer.resultOf_analyzed, Analyzer.resultOf_analyzed]
    exact Evidence.verdicts_on_mono t fun e he _ => hfound.subset he
  exact ⟨hfound.filter _, hverdicts, fun fs hf => Config.gateFailures_mono hverdicts hf⟩

/-- A disk with a plugin that has nothing but a manifest. -/
def bareDisk : Disk where
  root := .directory [("p", .directory
    [("plugin.json", .file "\x7b\"name\":\"x\"\x7d".toUTF8.toList)])]
  current := []

/-- The disk with a script in a directory of the plugin that was made for it. -/
def scriptedDisk : Disk where
  root := .directory [("p", .directory
    [("bin", .directory [("a.sh", .file "echo\n".toUTF8.toList)]),
    ("plugin.json", .file "\x7b\"name\":\"x\"\x7d".toUTF8.toList)])]
  current := []

/-- An analyzer with the default settings and the bundled rules. -/
def bundledAnalyzer : Analyzer := ⟨{}, Bundled.tables, .inTurn⟩

/-- The script is the only evidence of its plugin. -/
theorem sources_scripted : (bundledAnalyzer.analyze scriptedDisk "/p").map
    (fun r => r.evidence.map (·.source)) = .ok [.script] := by
  decide +kernel

/-- The bare plugin gains a script, which is evidence, and its verdicts are no better. -/
theorem added_script_improves_nothing :
    bareDisk.Gains "echo\n".toUTF8.toList ["p", "bin", "a.sh"] scriptedDisk ∧
      ∃ r r', bundledAnalyzer.analyze bareDisk "/p" = .ok r ∧
        bundledAnalyzer.analyze scriptedDisk "/p" = .ok r' ∧ r'.evidence ≠ [] ∧
        r.evidence.Sublist r'.evidence ∧ ∀ t, r.analyzed.on t ≤ r'.analyzed.on t := by
  have hgains : bareDisk.Gains "echo\n".toUTF8.toList ["p", "bin", "a.sh"] scriptedDisk := by
    refine ⟨@Node.Gains.inside _ _ _ [] [] _ _ (by simp) (@Node.Gains.fresh _ _ _ [] [_] ?_), rfl⟩
    intro e he
    rw [List.mem_singleton.mp he]
    decide
  have hplace : ∀ p, Plugin.open? bareDisk "/p" bundledAnalyzer.config.files = .ok p →
      p.manifestPlace? scriptedDisk = p.manifestPlace? bareDisk := by
    intro p hopen
    obtain ⟨names, hn, hopen⟩ := Attempt.bind_eq_ok_iff.mp hopen
    obtain ⟨units, hu, hopen⟩ := Attempt.bind_eq_ok_iff.mp hopen
    have hplain : bareDisk.plainNames "/p" = .ok ["p"] := by decide +kernel
    cases hplain.symm.trans hn
    cases hu
    cases hopen
    decide +kernel
  obtain ⟨r, hr⟩ : ∃ r, bundledAnalyzer.analyze bareDisk "/p" = .ok r :=
    Attempt.exists_of_isOk (by decide +kernel)
  obtain ⟨r', hr', hsources⟩ := Attempt.map_eq_ok_iff.mp sources_scripted
  -- The new script is the first evidence there is.
  have hsome : r'.evidence ≠ [] := by
    rintro hnil
    rw [hnil] at hsources
    cases hsources
  obtain ⟨hevidence, hverdicts, -⟩ := added_file_improves_nothing bundledAnalyzer bareDisk
    scriptedDisk "/p" _ _ r r' hgains hplace hr hr'
  exact ⟨hgains, r, r', hr, hr', hsome, hevidence, hverdicts⟩

end SurfaceAudit
