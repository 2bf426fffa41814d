import SurfaceAudit.Proofs.Arrangement
import SurfaceAudit.Proofs.Merging
import SurfaceAudit.Proofs.Outlines
import SurfaceAudit.Proofs.Scanners

/-!
# A list of surfaces in the manifest only restricts

A list of surfaces is put into a manifest, and everything else stays as it was. What the list comes
to is told by `Manifest.Lists`: what is declared, and the evidence against the surfaces that are
left out. The files of the plugin are read as before, unless the manifest is one of them by another
path (`Plugin.reading_eq`), so the only difference in the evidence is that of the list, which comes
first.
-/

namespace SurfaceAudit

namespace Value

/-- Without the entries under a text key, the other keys have their values. -/
theorem lookup_filter (es : List (Value × Value)) (key t : Text) :
    lookup (es.filter fun e => !e.1.isText key) t = if t = key then none else lookup es t := by
  induction es with
  | nil => simp [lookup]
  | cons e r ih =>
    obtain ⟨k, v⟩ := e
    rw [List.filter_cons]
    -- Whether the first entry goes is one question, whether its key is the one asked for is
    -- another.
    by_cases hk : k.isText key = true
    · rw [if_neg (by simp [hk]), ih, lookup_cons]
      by_cases ht : t = key
      · rw [if_pos ht, if_pos ht]
      · have hkt : k.isText t = false := by
          rw [isText_iff.mp hk, Bool.eq_false_iff, ne_eq, isText_iff]
          exact fun heq => ht (Value.text.inj heq).symm
        rw [if_neg ht, if_neg ht, hkt]
        simp
    · rw [if_pos (by simp [hk]), lookup_cons, ih, lookup_cons]
      by_cases ht : t = key
      · rw [if_pos ht, if_pos ht, ht, if_neg hk]
      · rw [if_neg ht, if_neg ht]

end Value

/-- A list of surfaces whose items have texts comes to something. -/
theorem Declaration.exists_targetsEvidence? (file : Text) {targets : Value} {items : List Value}
    {declared : List Text} (hi : targets.items? = some items)
    (hd : items.mapM Value.shown = .ok declared) :
    ∃ found, targetsEvidence? file targets = .ok found := by
  unfold targetsEvidence?
  rw [hi]
  dsimp only
  rw [hd]
  by_cases hnone : (Target.all.filter fun t => !declared.contains t.name).isEmpty = true
  · exact ⟨none, if_pos hnone⟩
  · exact ⟨_, if_neg hnone⟩

namespace Manifest

/-- The entries of a manifest without the surfaces that it lists. -/
def withoutTargets (es : List (Value × Value)) : List (Value × Value) :=
  es.filter fun e => !e.1.isText "targets"

/-- Without the surfaces listed, nothing is listed. -/
theorem field_targets_withoutTargets (es : List (Value × Value)) :
    Value.field (withoutTargets es) "targets" = .null := by
  unfold Value.field withoutTargets
  rw [Value.lookup_filter, if_pos rfl]
  rfl

/-- Without the surfaces listed, everything else is there. -/
theorem field_withoutTargets (es : List (Value × Value)) {key : Text}
    (h : key ≠ ("targets" : Text)) :
    Value.field (withoutTargets es) key = Value.field es key := by
  unfold Value.field withoutTargets
  rw [Value.lookup_filter, if_neg h]

/-- What a value comes to that stands for the surfaces in a manifest: the surfaces listed, and the
evidence. -/
inductive Lists (file : Text) (targets : Value) : Option (List Text) → List Evidence → Prop where
  /-- It is no list. -/
  | none (h : targets.items? = none) : Lists file targets none []
  /-- All surfaces are in it. -/
  | all {items : List Value} {declared : List Text} (hi : targets.items? = some items)
    (hd : items.mapM Value.shown = .ok declared) (h : ∀ t : Target, t.name ∈ declared) :
    Lists file targets (some declared) []
  /-- Some surface is not in it. -/
  | some {items : List Value} {declared : List Text} {e : Evidence}
    (hi : targets.items? = some items) (hd : items.mapM Value.shown = .ok declared)
    (h : ∃ t : Target, t.name ∉ declared) (he : e.IsDeclared declared file) :
    Lists file targets (some declared) [e]

/-- A list declares the texts of its items. -/
theorem Lists.exists_declared {file : Text} {targets : Value} {listed : Option (List Text)}
    {surfaces : List Evidence} (h : Lists file targets listed surfaces) {items : List Value}
    (hi : targets.items? = .some items) :
    ∃ declared, listed = .some declared ∧ items.mapM Value.shown = .ok declared := by
  cases h with
  | none hi' => cases hi.symm.trans hi'
  | all hi' hd _ =>
    cases hi.symm.trans hi'
    exact ⟨_, rfl, hd⟩
  | some hi' hd _ _ =>
    cases hi.symm.trans hi'
    exact ⟨_, rfl, hd⟩

/-- A value of JSON comes to something. -/
theorem exists_lists {targets : Value} (h : Json.IsJson targets) (name file : Text)
    {es : List (Value × Value)} (hes : Value.field es "targets" = targets) :
    ∃ listed surfaces, Lists file targets listed surfaces ∧
      ofEntries name file es =
        .ok ⟨name, (Value.field es "version").text?, listed, file, .map es⟩ ∧
      Declaration.manifestEvidence file (.map es) = .ok surfaces := by
  have hevidence {found : Option Evidence}
      (hfound : Declaration.targetsEvidence? file targets = .ok found) :
      Declaration.manifestEvidence file (.map es) = .ok found.toList := by
    unfold Declaration.manifestEvidence
    change Declaration.targetsEvidence? file (Value.field es "targets") >>= _ = _
    rw [hes, hfound]
    rfl
  -- The manifest and the evidence look at the value apart from each other, so each case is opened
  -- in both.
  cases hi : targets.items? with
  | none =>
    have hnone : Declaration.targetsEvidence? file targets = .ok none := by
      unfold Declaration.targetsEvidence?
      rw [hi]
      rfl
    refine ⟨none, [], .none hi, ?_, hevidence hnone⟩
    unfold ofEntries
    rw [hes, hi]
    rfl
  | some items =>
    obtain ⟨declared, hd⟩ : ∃ declared, items.mapM Value.shown = .ok declared :=
      Attempt.exists_mapM_eq_ok_iff.mpr fun v hv => (h.of_mem_items hi v hv).exists_shown
    obtain ⟨found, hfound⟩ := Declaration.exists_targetsEvidence? file hi hd
    have hentries : ofEntries name file es =
        .ok ⟨name, (Value.field es "version").text?, some declared, file, .map es⟩ := by
      unfold ofEntries
      rw [hes, hi]
      dsimp only
      rw [hd]
      rfl
    rcases Declaration.targetsEvidence?_cases hfound with
      ⟨hnone, -⟩ | ⟨items', declared', hi', hd', hcases⟩
    · rw [hi] at hnone
      cases hnone
    · cases hi.symm.trans hi'
      cases hd.symm.trans hd'
      rcases hcases with ⟨hall, rfl⟩ | ⟨hsome, e, rfl, he⟩
      · exact ⟨some declared, [], .all hi hd hall, hentries, hevidence hfound⟩
      · exact ⟨some declared, [e], .some hi hd hsome he, hentries, hevidence hfound⟩

end Manifest

namespace Plugin

/-- The manifest of a plugin is at a path, and an object with given entries. -/
def HoldsManifest (p : Plugin) (d : Disk) (file : Text) (es : List (Value × Value)) : Prop :=
  ∃ text v, p.ManifestSpells d file text ∧ Json.read text = .ok v ∧ v.entries? = some es

/-- What a manifest holds can be told by a test. -/
theorem holdsManifest_of_agrees {p : Plugin} {d : Disk} {file : Text} {es : List (Value × Value)}
    (hd : d.hasDirectory p.path = .ok true) (hp : p.manifestPlace? d = .ok (some file))
    (h : (match p.manifestText d file with
      | .ok text => match Json.read text with
        | .ok v => v.agrees (.map es)
        | .error _ => false
      | .error _ => false) = true) : p.HoldsManifest d file es := by
  split at h
  · rename_i text ht
    exact ⟨text, .map es, manifestSpells_of_manifestText hd hp ht, Json.read_eq_of_agrees h, rfl⟩
  · cases h

/-- A manifest that is an object has no name, or it is read, and its surfaces come to something. -/
theorem HoldsManifest.cases {p : Plugin} {d : Disk} {file : Text} {es : List (Value × Value)}
    (h : p.HoldsManifest d file es) :
    (Manifest.nameOf? es = none ∧
      p.manifest d = .error (.manifest (.noName (p.pathOf file)))) ∨
    ∃ name m listed surfaces, Manifest.nameOf? es = some name ∧ p.manifest d = .ok m ∧
      m = ⟨name, (Value.field es "version").text?, listed, file, .map es⟩ ∧
      Manifest.Lists file (Value.field es "targets") listed surfaces ∧
      m.scan.task.run = (surfaces, []) := by
  obtain ⟨text, v, hs, hv, he⟩ := h
  have hjson : Json.IsJson (Value.field es "targets") := (Json.isJson_of_read hv).field he "targets"
  rw [hs.manifest_eq, hv]
  simp only [he]
  cases Manifest.nameOf? es with
  | none => exact .inl ⟨rfl, rfl⟩
  | some name =>
    obtain ⟨listed, surfaces, hlists, hentries, hevidence⟩ :=
      Manifest.exists_lists hjson name file rfl
    exact .inr ⟨name, _, listed, surfaces, rfl, hentries, rfl, hlists,
      ScanTask.run_of_ok hevidence⟩

/-- A manifest has the same entries on two disks, but for the surfaces listed: on the one there are
none, and on the other a value stands for them. The disks are the same but for the file at a place,
which is none of the files of the plugin that are looked at. -/
structure Retargets (p : Plugin) (d : Disk) (targets : Value) (place : List Text) (d' : Disk) :
    Prop where
  /-- The manifests have the same entries otherwise. -/
  exists_entries : ∃ file es, p.HoldsManifest d file (Manifest.withoutTargets es) ∧
    p.HoldsManifest d' file es ∧ Value.field es "targets" = targets
  /-- The files that are looked at are elsewhere. -/
  isApart : ∀ paths, (p.collect d).outcome = .ok paths → ∀ relative ∈ paths,
    p.kindOf relative ≠ .ok .other → ∀ node, d.locate (p.pathOf relative) ≠ .ok (place, node)

/-- If the manifest in use is a file in the tree of a plugin, to which no link leads, then none of
the files that are listed is in its place. -/
theorem locate_ne_of_at? {p : Plugin} {d : Disk} (hd : d.root.IsProper) {n : Node}
    (hn : d.find? p.path = some n) {below place : List Text} {content : List UInt8}
    (hf : n.at? below = some (.file content)) (hbelow : ∀ name ∈ below, Path.IsName name)
    (hplace : p.manifestPlace? d = .ok (some (Path.ofNames below))) {found : Option Node}
    (hlocate : d.locate (p.pathOf (Path.ofNames below)) = .ok (place, found)) {paths : List Text}
    (hl : (p.collect d).outcome = .ok paths) {relative : Text} (hr : relative ∈ paths)
    (node : Option Node) : d.locate (p.pathOf relative) ≠ .ok (place, node) := by
  intro hlocate'
  obtain ⟨-, below', content', -, rfl, hf', hbelow', -⟩ :=
    exists_of_mem_collect hn (Disk.isProper_of_find? hd hn) hl hr
  -- Both paths go straight down from where the plugin is, so that the place tells the names.
  obtain ⟨q, hq⟩ := exists_locate_pathOf hn
  have hend {r : List Text} {bytes : List UInt8} {x : Option Node}
      (hr : n.at? r = some (.file bytes)) (hnames : ∀ name ∈ r, Path.IsName name)
      (h : d.locate (p.pathOf (Path.ofNames r)) = .ok (place, x)) : place = q ++ r := by
    rw [hq r bytes hr hnames] at h
    unfold Disk.endBelow at h
    split at h
    · cases h
    split at h
    · cases h
    · cases h
      rfl
  have heq : below = below' :=
    List.append_cancel_left ((hend hf hbelow hlocate).symm.trans (hend hf' hbelow' hlocate'))
  rw [← heq] at hr
  exact notMem_collect hl hplace hr

/-- Both manifests have the same defect, or both are read, and what stands for the surfaces in the
second one is all that differs. -/
theorem Retargets.manifests {p : Plugin} {d d' : Disk} {targets : Value} {place : List Text}
    (h : p.Retargets d targets place d') :
    (∃ f, p.manifest d = .error f ∧ p.manifest d' = .error f) ∨
    ∃ (name file : Text) (version : Option Text) (raw raw' : Value) (listed : Option (List Text))
      (surfaces : List Evidence), p.manifest d = .ok ⟨name, version, none, file, raw⟩ ∧
      p.manifest d' = .ok ⟨name, version, listed, file, raw'⟩ ∧
      (Manifest.scan ⟨name, version, none, file, raw⟩).task.run = ([], []) ∧
      (Manifest.scan ⟨name, version, listed, file, raw'⟩).task.run = (surfaces, []) ∧
      Manifest.Lists file targets listed surfaces := by
  obtain ⟨⟨file, es, hm, hm', rfl⟩, -⟩ := h
  have hname : Manifest.nameOf? (Manifest.withoutTargets es) = Manifest.nameOf? es := by
    unfold Manifest.nameOf?
    rw [Manifest.field_withoutTargets es (by decide)]
  rcases hm.cases with ⟨hnone, herror⟩ |
    ⟨name, m, listed, surfaces, hsome, hmanifest, rfl, hl, hrun⟩
  · left
    rcases hm'.cases with ⟨-, herror'⟩ | ⟨name', -, -, -, hsome', -⟩
    · exact ⟨_, herror, herror'⟩
    · rw [← hname, hnone] at hsome'
      cases hsome'
  · right
    rcases hm'.cases with ⟨hnone', -⟩ |
      ⟨name', m', listed', surfaces', hsome', hmanifest', rfl, hl', hrun'⟩
    · rw [← hname, hsome] at hnone'
      cases hnone'
    · cases hsome.symm.trans (hname.trans hsome')
      -- The first manifest lists nothing, and nothing comes of it.
      rw [Manifest.field_targets_withoutTargets] at hl
      rw [Manifest.field_withoutTargets es (by decide)] at hmanifest hrun
      cases hl with
      | none _ => exact ⟨name, file, _, _, _, _, _, hmanifest, hmanifest', hrun, hrun', hl'⟩
      | all hi _ _ => cases hi
      | some hi _ _ _ => cases hi

end Plugin

/-- A result is another one with a list of surfaces declared: the surfaces that are not in the list
are out, with evidence for it on a file before all other evidence, and nothing else is different. -/
structure Result.Declares (r : Result) (declared : List Text) (file : Text) (r' : Result) :
    Prop where
  /-- The name of the plugin is the same. -/
  plugin_eq : r'.plugin = r.plugin
  /-- So is its version. -/
  version_eq : r'.version = r.version
  /-- The surfaces are listed now. -/
  declared_eq : r'.declared = some declared
  /-- The counts are the same. -/
  summary_eq : r'.summary = r.summary
  /-- So are the errors. -/
  errors_eq : r'.errors = r.errors
  /-- A surface that is listed keeps its verdict, and any other is ruled out. -/
  on_eq : ∀ t, r'.analyzed.on t =
    if t.name ∈ declared then r.analyzed.on t else .incompatible
  /-- If all surfaces are listed, there is no evidence besides. -/
  evidence_eq : (∀ t : Target, t.name ∈ declared) → r'.evidence = r.evidence
  /-- If one is not, there is one piece of evidence besides, which is that of the list. -/
  exists_evidence : (∃ t : Target, t.name ∉ declared) →
    ∃ e, e.IsDeclared declared file ∧ r'.evidence = e :: r.evidence

namespace Evidence

variable {declared : List Text} {file : Text} {e : Evidence}

/-- Evidence of a list that leaves some surface out restricts something. -/
theorem IsDeclared.isInformational_eq (he : e.IsDeclared declared file)
    (h : ∃ t : Target, t.name ∉ declared) : e.isInformational = false := by
  obtain ⟨t, ht⟩ := h
  rw [Bool.eq_false_iff, ne_eq, isInformational_iff]
  intro hall
  have hon := he.on_eq t
  rw [hall t, if_neg ht] at hon
  cases hon

/-- With the evidence of a list, the verdicts are those of the rest on the surfaces in the list, and
the others are out. -/
theorem IsDeclared.verdicts_cons_on (he : e.IsDeclared declared file) (es : List Evidence)
    (t : Target) : (verdicts (e :: es)).on t =
      if t.name ∈ declared then (verdicts es).on t else .incompatible := by
  -- A verdict is told by what it stands below, and below is a matter of every piece of evidence.
  have hle (v : Verdict) : (verdicts (e :: es)).on t ≤ v ↔ e.impact.on t ≤ v ∧
      (verdicts es).on t ≤ v := by
    rw [verdicts_on_le_iff, verdicts_on_le_iff, List.forall_mem_cons]
  rw [he.on_eq t] at hle
  split
  · rename_i hmem
    rw [if_pos hmem] at hle
    apply Verdict.le_antisymm
    · exact (hle _).mpr ⟨Verdict.compatible_le _, Verdict.le_refl _⟩
    · exact ((hle _).mp (Verdict.le_refl _)).2
  · rename_i hmem
    rw [if_neg hmem] at hle
    have hout := ((hle _).mp (Verdict.le_refl _)).1
    cases hv : (verdicts (e :: es)).on t with
    | incompatible => rfl
    | compatible => rw [hv] at hout; exact absurd hout (by decide)
    | needsReview => rw [hv] at hout; exact absurd hout (by decide)

end Evidence

namespace Analyzer

variable {a : Analyzer} {d : Disk} {path : Text} {p : Plugin} {m : Manifest}

/-- Once the manifest of a plugin is read, an analysis reads the files, and what the scans find
makes the result. -/
theorem analyze_of_manifest (hopen : Plugin.open? d path a.config.files = .ok p)
    (hm : p.manifest d = .ok m) : a.analyze d path =
      (p.reading d).outcome >>= fun files => a.config.workers.toInt.map fun _ =>
        a.resultIn ⟨p.path, m, files⟩ (p.reading d).notes := by
  rw [analyze_eq_scans, hopen]
  change ((p.contents d).outcome >>= fun c => a.config.workers.toInt.map fun _ =>
    a.resultIn c (p.contents d).notes) = _
  rw [Plugin.contents_of_manifest hm, Noting.outcome_bind_pure, Noting.notes_bind_pure]
  cases (p.reading d).outcome <;> rfl

/-- An analysis fails as the manifest does. -/
theorem analyze_of_manifest_error {f : Fault}
    (hopen : Plugin.open? d path a.config.files = .ok p) (hm : p.manifest d = .error f) :
    a.analyze d path = .error f := by
  rw [analyze_eq_scans, hopen]
  change ((p.contents d).outcome >>= _) = _
  rw [Plugin.outcome_contents, hm]
  rfl

/-- The scans of some files whose scanners are on. -/
def scansIn (a : Analyzer) (files : List PluginFile) : List Scan :=
  (files.flatMap (·.scans a.rules)).filter (·.scanner.isOn a.config.scanners)

/-- With the scanner for the manifest on, what it finds comes first. -/
theorem resultIn_of_run (hon : a.config.scanners.declaration.isTrue = true)
    {surfaces : List Evidence} (hrun : m.scan.task.run = (surfaces, [])) (path : Text)
    (files : List PluginFile) (notes : List Note) :
    a.resultIn ⟨path, m, files⟩ notes =
      resultOf ⟨path, m, files⟩ (surfaces ++ (a.scansIn files).flatMap (·.task.run.1))
        (notes ++ (a.tasks ⟨path, m, files⟩).2 ++ (a.scansIn files).flatMap (·.task.run.2)) := by
  have hscans : a.scans ⟨path, m, files⟩ = m.scan :: a.scansIn files :=
    List.filter_cons_of_pos hon
  unfold resultIn
  rw [hscans, List.flatMap_cons, List.flatMap_cons, hrun, List.nil_append]

/-- With a list of surfaces, a result declares what is listed, and the evidence of the list comes
first. -/
theorem declares_resultOf {file name : Text} {version : Option Text} {declared : List Text}
    {raw raw' targets : Value} {surfaces found : List Evidence}
    (h : Manifest.Lists file targets (some declared) surfaces) (path : Text)
    (files : List PluginFile) (notes : List Note) :
    (resultOf ⟨path, ⟨name, version, none, file, raw⟩, files⟩ found notes).Declares declared file
      (resultOf ⟨path, ⟨name, version, some declared, file, raw'⟩, files⟩ (surfaces ++ found)
        notes) := by
  -- A list of all the surfaces is no evidence; one that leaves some out comes first.
  cases h with
  | all _ _ hall =>
    refine ⟨rfl, rfl, rfl, rfl, rfl, fun t => ?_, fun _ => rfl, ?_⟩
    · rw [if_pos (hall t)]
      rfl
    · rintro ⟨t, ht⟩
      exact absurd (hall t) ht
  | @some _ _ e _ _ hsome he =>
    have hrestricts := he.isInformational_eq hsome
    refine ⟨rfl, rfl, rfl, rfl, rfl, fun t => ?_, ?_, fun _ => ⟨e, he, ?_⟩⟩
    · rw [resultOf_analyzed, resultOf_analyzed]
      exact he.verdicts_cons_on found t
    · intro hall
      obtain ⟨t, ht⟩ := hsome
      exact absurd (hall t) ht
    · change (e :: found).filter (!·.isInformational) = e :: found.filter (!·.isInformational)
      exact List.filter_cons_of_pos (by rw [hrestricts]; rfl)

end Analyzer

/-- A list of surfaces that is put into a manifest only restricts, and exactly as it says. Say two
disks are the same but for the file at a place, in which the manifest of a plugin gets a value for
its surfaces on the second disk, and no other file of the plugin that is looked at is that file; and
the scanner for the manifest is on. Then analyses fail alike on both. If there is a result without
the value, there is one with it: the same, if the value is no list; and if it is a list, the
surfaces that are not among the texts of its items are out, with one piece of evidence for it before
all other evidence if there are any, and plugin, version, counts, errors, the other verdicts and the
other evidence are the same. -/
theorem manifest_targets_restrict (a : Analyzer) (d d' : Disk) (path : Text) (place : List Text)
    (targets : Value) (hon : a.config.scanners.declaration.isTrue = true)
    (hd : d.DiffersAt place d')
    (hp : ∀ p, Plugin.open? d path a.config.files = .ok p → p.Retargets d targets place d') :
    (∀ f, a.analyze d' path = .error f ↔ a.analyze d path = .error f) ∧
    ∀ r, a.analyze d path = .ok r → ∃ r', a.analyze d' path = .ok r' ∧
      (targets.items? = none → r' = r) ∧
      ∀ items, targets.items? = some items → ∃ declared file,
        items.mapM Value.shown = .ok declared ∧ r.Declares declared file r' := by
  -- No bytes are looked at when a plugin is opened.
  have hopen' : Plugin.open? d' path a.config.files = Plugin.open? d path a.config.files := by
    rw [← Plugin.open?_outline, hd.outline_eq, Plugin.open?_outline]
  cases hopen : Plugin.open? d path a.config.files with
  | error f =>
    rw [hopen] at hopen'
    have herror : a.analyze d path = .error f := by rw [Analyzer.analyze_eq_scans, hopen]; rfl
    have herror' : a.analyze d' path = .error f := by rw [Analyzer.analyze_eq_scans, hopen']; rfl
    rw [herror, herror']
    exact ⟨fun _ => Iff.rfl, fun r h => (nomatch h)⟩
  | ok p =>
    rw [hopen] at hopen'
    have hretargets := hp p hopen
    -- The files are read alike, and so the evidence differs in that of the manifest alone.
    have hreading : p.reading d' = p.reading d := Plugin.reading_eq hd hretargets.isApart
    rcases hretargets.manifests with ⟨f, herror, herror'⟩ |
      ⟨name, file, version, raw, raw', listed, surfaces, hm, hm', hrun, hrun', hlists⟩
    · rw [Analyzer.analyze_of_manifest_error hopen herror,
        Analyzer.analyze_of_manifest_error hopen' herror']
      exact ⟨fun _ => Iff.rfl, fun r h => (nomatch h)⟩
    · rw [Analyzer.analyze_of_manifest hopen hm, Analyzer.analyze_of_manifest hopen' hm', hreading]
      constructor
      · intro f
        simp only [Attempt.bind_eq_error_iff, Attempt.map_eq_error_iff]
      · intro r h
        obtain ⟨files, hfiles, h⟩ := Attempt.bind_eq_ok_iff.mp h
        obtain ⟨workers, hw, rfl⟩ := Attempt.map_eq_ok_iff.mp h
        refine ⟨_, Attempt.bind_eq_ok_iff.mpr
          ⟨files, hfiles, Attempt.map_eq_ok_iff.mpr ⟨workers, hw, rfl⟩⟩, ?_⟩
        rw [Analyzer.resultIn_of_run hon hrun, Analyzer.resultIn_of_run hon hrun']
        constructor
        · intro hi
          cases hlists with
          | none _ => rfl
          | all hi' _ _ => cases hi.symm.trans hi'
          | some hi' _ _ _ => cases hi.symm.trans hi'
        · intro items hi
          obtain ⟨declared, rfl, hdeclared⟩ := hlists.exists_declared hi
          exact ⟨declared, file, hdeclared, Analyzer.declares_resultOf hlists _ _ _⟩

/-- The disk of the plugin with a script, which lists the shared workspace alone. -/
def restrictedDisk : Disk where
  root := .directory [("p", .directory
    [("bin", .directory [("a.sh", .file "echo\n".toUTF8.toList)]),
    ("plugin.json", .file "\x7b\"name\":\"x\",\"targets\":[\"cowork\"]\x7d".toUTF8.toList)])]
  current := []

/-- The manifest of the plugin with a script gets a list with the shared workspace alone. -/
theorem retargets_scripted {p : Plugin} (h : Plugin.open? scriptedDisk "/p" {} = .ok p) :
    p.Retargets scriptedDisk (.list [.text "cowork"]) ["p", "plugin.json"] restrictedDisk := by
  have hplain : scriptedDisk.plainNames "/p" = .ok ["p"] := by decide +kernel
  cases (Plugin.open?_of_plainNames hplain).symm.trans h
  have hproper : scriptedDisk.root.IsProper := by decide +kernel
  constructor
  · refine ⟨"plugin.json", [(.text "name", .text "x"), (.text "targets", .list [.text "cowork"])],
      ?_, ?_, rfl⟩
    · exact Plugin.holdsManifest_of_agrees (by decide +kernel) (by decide +kernel)
        (by decide +kernel)
    · exact Plugin.holdsManifest_of_agrees (by decide +kernel) (by decide +kernel)
        (by decide +kernel)
  · intro paths hl relative hr _
    -- What is listed is not the manifest, since the walk leaves it out and there are no links to
    -- it.
    have hfile : Node.at? (.directory
        [("bin", .directory [("a.sh", .file "echo\n".toUTF8.toList)]),
        ("plugin.json", .file "\x7b\"name\":\"x\"\x7d".toUTF8.toList)]) ["plugin.json"] =
        some (.file "\x7b\"name\":\"x\"\x7d".toUTF8.toList) := rfl
    exact Plugin.locate_ne_of_at? hproper rfl hfile (by decide +kernel) (by decide +kernel) rfl
      hl hr

/-- The plugin with a script gets a list with the shared workspace alone. The verdict there is that
of the script, the others are out, and the list is the first evidence. -/
theorem manifest_targets_restrict_scripted :
    bundledAnalyzer.config.scanners.declaration.isTrue = true ∧
    scriptedDisk.DiffersAt ["p", "plugin.json"] restrictedDisk ∧
    (∀ p, Plugin.open? scriptedDisk "/p" bundledAnalyzer.config.files = .ok p →
      p.Retargets scriptedDisk (.list [.text "cowork"]) ["p", "plugin.json"] restrictedDisk) ∧
    ∃ r r', bundledAnalyzer.analyze scriptedDisk "/p" = .ok r ∧
      bundledAnalyzer.analyze restrictedDisk "/p" = .ok r' ∧ r.evidence ≠ [] ∧
      ∃ file, r.Declares ["cowork"] file r' := by
  have hon : bundledAnalyzer.config.scanners.declaration.isTrue = true := rfl
  have hdiffers : scriptedDisk.DiffersAt ["p", "plugin.json"] restrictedDisk := by
    refine Disk.differsAt_of_differs ?_ rfl
    refine @Node.Differs.inside _ _ [] _ _ _ (by simp) ?_
    exact @Node.Differs.inside _ _ [_] _ _ _ (by decide +kernel) (.file _ _)
  have hretargets : ∀ p, Plugin.open? scriptedDisk "/p" bundledAnalyzer.config.files = .ok p →
      p.Retargets scriptedDisk (.list [.text "cowork"]) ["p", "plugin.json"] restrictedDisk :=
    fun p hopen => retargets_scripted hopen
  obtain ⟨r, hr, hsources⟩ := Attempt.map_eq_ok_iff.mp sources_scripted
  obtain ⟨-, hall⟩ := manifest_targets_restrict bundledAnalyzer scriptedDisk restrictedDisk "/p"
    ["p", "plugin.json"] (.list [.text "cowork"]) hon hdiffers hretargets
  obtain ⟨r', hr', -, hlist⟩ := hall r hr
  obtain ⟨declared, file, hdeclared, hd⟩ := hlist [.text "cowork"] rfl
  -- The list that the theorem finds is the one in the manifest.
  have hshown : [Value.text "cowork"].mapM Value.shown = .ok ["cowork"] := by decide +kernel
  cases hshown.symm.trans hdeclared
  refine ⟨hon, hdiffers, hretargets, r, r', hr, hr', ?_, file, hd⟩
  rintro hnil
  rw [hnil] at hsources
  cases hsources

/-- A disk with a plugin whose manifest is a link to its hook configuration, given the text of
both. -/
def aliasedDisk (text : String) : Disk where
  root := .directory [("p", .directory
    [(".claude-plugin", .directory [("plugin.json", .link "../hooks.json")]),
    ("hooks.json", .file text.toUTF8.toList)])]
  current := []

/-- A manifest with a name alone. -/
def namingText : String := "\x7b\"name\":\"x\"\x7d"

/-- The manifest with a list of all surfaces and a hook. -/
def listingText : String :=
  "\x7b\"name\":\"x\",\"targets\":[\x7b\"type\":\"command\",\"command\":\"pip install y\"\x7d," ++
    "\"claude-desktop\",\"cowork\",\"claude-code\"]\x7d"

/-- The list of all surfaces and a hook. -/
def listedSurfaces : List Value :=
  [.map [(.text "type", .text "command"), (.text "command", .text "pip install y")],
    .text "claude-desktop", .text "cowork", .text "claude-code"]

/-- Where the manifest is the hook configuration, too, a list of surfaces that has a hook in it is
more than a list: all surfaces are in it, and still the desktop is out, for the hook. -/
theorem aliased_targets_restrict_more :
    ∃ (p : Plugin) (es : List (Value × Value)) (declared : List Text) (r r' : Result),
      (aliasedDisk namingText).DiffersAt ["p", "hooks.json"] (aliasedDisk listingText) ∧
      Plugin.open? (aliasedDisk namingText) "/p" {} = .ok p ∧
      p.HoldsManifest (aliasedDisk namingText) ".claude-plugin/plugin.json"
        (Manifest.withoutTargets es) ∧
      p.HoldsManifest (aliasedDisk listingText) ".claude-plugin/plugin.json" es ∧
      Value.field es "targets" = .list listedSurfaces ∧
      listedSurfaces.mapM Value.shown = .ok declared ∧ (∀ t : Target, t.name ∈ declared) ∧
      bundledAnalyzer.analyze (aliasedDisk namingText) "/p" = .ok r ∧
      bundledAnalyzer.analyze (aliasedDisk listingText) "/p" = .ok r' ∧
      r.evidence = [] ∧ r'.evidence ≠ [] ∧
      r.analyzed.on .desktop = .compatible ∧ r'.analyzed.on .desktop = .incompatible := by
  have hdiffers : (aliasedDisk namingText).DiffersAt ["p", "hooks.json"]
      (aliasedDisk listingText) := by
    refine Disk.differsAt_of_differs ?_ rfl
    refine @Node.Differs.inside _ _ [] _ _ _ (by simp) ?_
    exact @Node.Differs.inside _ _ [_] _ _ _ (by decide +kernel) (.file _ _)
  have hplain : (aliasedDisk namingText).plainNames "/p" = .ok ["p"] := by decide +kernel
  have hplainRun : (bundledAnalyzer.analyze (aliasedDisk namingText) "/p").map
      (fun r => (r.evidence.length, r.analyzed.on .desktop)) = .ok (0, .compatible) := by
    decide +kernel
  -- The file is read as hooks, too, so a hook in the list of surfaces is found as one.
  have hlistingRun : (bundledAnalyzer.analyze (aliasedDisk listingText) "/p").map
      (fun r => (r.evidence.length, r.analyzed.on .desktop)) = .ok (1, .incompatible) := by
    decide +kernel
  have hshown : (listedSurfaces.mapM Value.shown).map (List.drop 1) =
      .ok ["claude-desktop", "cowork", "claude-code"] := by
    decide +kernel
  obtain ⟨r, hr, hpair⟩ := Attempt.map_eq_ok_iff.mp hplainRun
  obtain ⟨r', hr', hpair'⟩ := Attempt.map_eq_ok_iff.mp hlistingRun
  obtain ⟨declared, hdeclared, hrest⟩ := Attempt.map_eq_ok_iff.mp hshown
  have hall (t : Target) : t.name ∈ declared := by
    have hmem : t.name ∈ (["claude-desktop", "cowork", "claude-code"] : List Text) := by
      cases t <;> decide
    rw [← hrest] at hmem
    exact List.mem_of_mem_drop hmem
  obtain ⟨hlength, hdesktop⟩ := Prod.mk.inj hpair
  obtain ⟨hlength', hdesktop'⟩ := Prod.mk.inj hpair'
  refine ⟨_, [(.text "name", .text "x"), (.text "targets", .list listedSurfaces)], declared, r, r',
    hdiffers, Plugin.open?_of_plainNames hplain, ?_, ?_, rfl, hdeclared, hall, hr, hr',
    List.eq_nil_of_length_eq_zero hlength, ?_, hdesktop, hdesktop'⟩
  · exact Plugin.holdsManifest_of_agrees (by decide +kernel) (by decide +kernel) (by decide +kernel)
  · exact Plugin.holdsManifest_of_agrees (by decide +kernel) (by decide +kernel) (by decide +kernel)
  · rintro hnil
    rw [hnil] at hlength'
    cases hlength'

end SurfaceAudit
