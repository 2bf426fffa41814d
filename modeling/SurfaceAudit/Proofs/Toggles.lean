import SurfaceAudit.Proofs.Arrangement

/-!
# Scanners are turned off one by one

What is found and what is noted tells which scanner it is from: evidence by its source and its file
(`Contents.owns_eq_true_iff`), and the note on a scan that failed by the name of the scanner
(`Scan.blames_message_iff`). The notes on anything else name no scanner. So turning scanners off
takes away what is theirs, and nothing else.
-/

namespace SurfaceAudit

/-- If a test tells the members of the lists by what the lists stand for, it may be made there. -/
theorem filter_flatMap_eq {α β : Type} {xs : List α} {g : α → List β} {keep : β → Bool}
    {on : α → Bool} (h : ∀ x ∈ xs, ∀ y ∈ g x, keep y = on x) :
    (xs.flatMap g).filter keep = (xs.filter on).flatMap g := by
  induction xs with
  | nil => rfl
  | cons x r ih =>
    have hx := h x List.mem_cons_self
    rw [List.flatMap_cons, List.filter_append, ih fun y hy => h y (List.mem_cons_of_mem x hy)]
    cases hon : on x with
    | true =>
      have hall : (g x).filter keep = g x :=
        List.filter_eq_self.mpr fun y hy => (hx y hy).trans hon
      rw [hall, List.filter_cons_of_pos hon, List.flatMap_cons]
    | false =>
      have hnone : (g x).filter keep = [] :=
        List.filter_eq_nil_iff.mpr fun y hy hkeep => by simp [hx y hy, hon] at hkeep
      rw [hnone, List.filter_cons_of_neg (by simp [hon]), List.nil_append]

namespace Scanner

/-- The names of the scanners tell them apart. -/
theorem name_injective {sc sc' : Scanner} (h : sc.name = sc'.name) : sc = sc' := by
  have hall : ∀ sc ∈ all, ∀ sc' ∈ all, sc.name = sc'.name → sc = sc' := by decide +kernel
  exact hall sc (mem_all sc) sc' (mem_all sc') h

/-- The names of the scanners have no colons. -/
theorem hasNoColon_name (sc : Scanner) : Note.HasNoColon sc.name := by
  have hall : ∀ sc ∈ all, Note.HasNoColon sc.name := by decide +kernel
  exact hall sc (mem_all sc)

/-- The sources of the scanners tell them apart. -/
theorem source_injective {sc sc' : Scanner} (h : sc.source = sc'.source) : sc = sc' := by
  cases sc <;> cases sc' <;> first | rfl | cases h

/-- All scanners are on by default. -/
theorem isOn_default (sc : Scanner) : sc.isOn {} = true := by cases sc <;> rfl

/-- No scanner that is off has a property. -/
def spares (s : ScannerSettings) (P : Scanner → Bool) : Bool := all.all fun sc => sc.isOn s || !P sc

/-- What one scanner has is spared if that scanner is on. -/
theorem spares_of_iff {s : ScannerSettings} {P : Scanner → Bool} {sc : Scanner}
    (h : ∀ sc', P sc' = true ↔ sc' = sc) : spares s P = sc.isOn s := by
  unfold spares
  rw [Bool.eq_iff_iff, List.all_eq_true]
  constructor
  · intro hall
    simpa [(h sc).mpr rfl] using hall sc (mem_all sc)
  · intro hon sc' _
    by_cases heq : sc' = sc
    · rw [heq, hon, Bool.true_or]
    · rw [Bool.eq_false_iff.mpr (mt (h sc').mp heq)]
      simp

/-- What no scanner has is spared. -/
theorem spares_of_forall {s : ScannerSettings} {P : Scanner → Bool} (h : ∀ sc, P sc = false) :
    spares s P = true := by
  unfold spares
  rw [List.all_eq_true]
  intro sc _
  rw [h sc]
  simp

/-- The words of an error say that a scanner failed. -/
def blames (error : Text) (sc : Scanner) : Bool := error.startsWith ("Scanner " ++ sc.name ++ ":")

/-- The evidence is that of a scanner: a list of surfaces on the manifest, the tools and lists of
surfaces of documents, or evidence of the source that is the scanner's own. -/
def owns (c : Contents) (e : Evidence) : Scanner → Bool
  | .declaration => e.source == .declaration && e.file == c.manifest.path
  | .frontmatter => e.source == .frontmatter ||
      (e.source == .declaration && (c.ofKind .markdown).any (·.path == e.file))
  | sc => e.source == sc.source

end Scanner

namespace Contents

variable {rules : RuleTables} {c : Contents} {x : Scan} {e : Evidence}

/-- A list of surfaces that a scan finds is that of the manifest, or that of a document. -/
theorem of_source_declaration (hx : x ∈ c.scans rules) (he : e ∈ x.task.run.1)
    (hs : e.source = .declaration) :
    (x.scanner = .declaration ∧ e.file = c.manifest.path) ∨
      x.scanner = .frontmatter ∧ ∃ f ∈ c.ofKind .markdown, e.file = f.path := by
  have hfinds := finds_of_mem_scans hx
  rcases mem_scans hx with rfl | ⟨f, hf, hfile, hkind, -⟩
  · exact .inl ⟨rfl, hfinds.file_eq he⟩
  · -- On a file no scanner for the manifest is run, so the evidence is from the header of a
    -- document.
    have hne : x.scanner ≠ .declaration := fun heq =>
      f.kind.declaration_notMem_scanners (heq ▸ hkind)
    have hfrontmatter : x.scanner = .frontmatter := by
      rcases hfinds.of_mem he with hruled | ⟨hsc | hsc, -⟩
      · have hsource : x.scanner.source = Scanner.declaration.source :=
          hruled.source_eq.symm.trans hs
        exact absurd (Scanner.source_injective hsource) hne
      · exact absurd hsc hne
      · exact hsc
    have hmarkdown : f.kind = .markdown := by
      rw [hfrontmatter] at hkind
      cases hk : f.kind <;> rw [hk] at hkind <;> first | rfl | exact absurd hkind (by decide)
    refine .inr ⟨hfrontmatter, f, ?_, (hfinds.file_eq he).trans hfile⟩
    exact List.mem_filter.mpr ⟨hf, beq_iff_eq.mpr hmarkdown⟩

/-- Evidence of another source than lists of surfaces is of the scan's own. -/
theorem source_eq_of_ne (hx : x ∈ c.scans rules) (he : e ∈ x.task.run.1)
    (hs : e.source ≠ .declaration) : e.source = x.scanner.source := by
  rcases (finds_of_mem_scans hx).of_mem he with hruled | ⟨-, declared, hdeclared⟩
  · exact hruled.source_eq
  · exact absurd hdeclared.source_eq hs

/-- The evidence of a scan is that of its scanner and of no other, if no file is in the place of the
manifest. -/
theorem owns_eq_true_iff (hplace : ∀ f ∈ c.files, f.path ≠ c.manifest.path)
    (hx : x ∈ c.scans rules) (he : e ∈ x.task.run.1) (sc : Scanner) :
    sc.owns c e = true ↔ sc = x.scanner := by
  by_cases hs : e.source = .declaration
  · rcases of_source_declaration hx he hs with ⟨hsc, hfile⟩ | ⟨hsc, f, hf, hfile⟩
    · -- The list is on the manifest, where no document is.
      have hnone : (c.ofKind .markdown).any (·.path == e.file) = false := by
        rw [List.any_eq_false]
        intro f hf heq
        exact hplace f (List.mem_filter.mp hf).1 ((beq_iff_eq.mp heq).trans hfile)
      rw [hsc]
      cases sc <;> simp [Scanner.owns, Scanner.source, hs, hfile, hfile ▸ hnone]
    · have hsome : (c.ofKind .markdown).any (·.path == e.file) = true :=
        List.any_eq_true.mpr ⟨f, hf, beq_iff_eq.mpr hfile.symm⟩
      have hne : e.file ≠ c.manifest.path := by
        rw [hfile]
        exact hplace f (List.mem_filter.mp hf).1
      rw [hsc]
      cases sc <;> simp [Scanner.owns, Scanner.source, hs, hne, hsome]
  · have hsource := source_eq_of_ne hx he hs
    have howns : sc.owns c e = (e.source == sc.source) := by
      cases sc <;> simp [Scanner.owns, Scanner.source, hs]
    rw [howns, beq_iff_eq, hsource]
    constructor
    · exact fun heq => (Scanner.source_injective heq).symm
    · rintro rfl
      rfl

end Contents

namespace Note

/-- The note is that a scanner failed. -/
def IsFailure (n : Note) : Prop := ∃ label fault, n = .scanner label fault

/-- Texts with different beginnings of two code points differ. -/
theorem not_isPrefixOf_of_take {s t u v : Text} (hs : 2 ≤ s.length) (ht : 2 ≤ t.length)
    (h : s.take 2 ≠ t.take 2) : (s ++ u).isPrefixOf (t ++ v) = false := by
  rw [Bool.eq_false_iff, ne_eq, List.isPrefixOf_iff_prefix]
  rintro ⟨w, heq⟩
  have htake := congrArg (List.take 2) heq
  rw [List.append_assoc, List.take_append_of_le_length hs,
    List.take_append_of_le_length ht] at htake
  exact h htake

/-- The words of a note that is no failure blame no scanner. -/
theorem blames_message_eq_false {n : Note} (h : ¬n.IsFailure) (sc : Scanner) :
    sc.blames n.message = false := by
  unfold Scanner.blames Text.startsWith
  -- All other notes begin with a word of their own, and not with that for a scanner.
  cases n with
  | scanner label fault => exact absurd ⟨label, fault, rfl⟩ h
  | directory path =>
    rw [message, List.append_assoc]
    exact not_isPrefixOf_of_take (by decide) (by decide) (by decide)
  | link path =>
    rw [message, List.append_assoc]
    exact not_isPrefixOf_of_take (by decide) (by decide) (by decide)
  | size bytes path =>
    rw [message, List.append_assoc, List.append_assoc, List.append_assoc]
    exact not_isPrefixOf_of_take (by decide) (by decide) (by decide)
  | unreadable path defect =>
    rw [message, List.append_assoc, List.append_assoc, List.append_assoc]
    exact not_isPrefixOf_of_take (by decide) (by decide) (by decide)
  | notJson path defect =>
    rw [message, List.append_assoc, List.append_assoc, List.append_assoc]
    exact not_isPrefixOf_of_take (by decide) (by decide) (by decide)
  | hooksShape path =>
    rw [message, List.append_assoc, List.append_assoc]
    exact not_isPrefixOf_of_take (by decide) (by decide) (by decide)
  | serversShape path =>
    rw [message, List.append_assoc, List.append_assoc]
    exact not_isPrefixOf_of_take (by decide) (by decide) (by decide)

end Note

/-- The words for the failure of a scan blame its scanner and no other. -/
theorem Scan.blames_message_iff {x : Scan} {n : Note} (h : n ∈ x.task.run.2) (sc : Scanner) :
    sc.blames n.message = true ↔ sc = x.scanner := by
  obtain ⟨fault, rfl⟩ : ∃ fault, n = .scanner x.task.label fault := by
    unfold ScanTask.run at h
    split at h
    · cases h
    · exact ⟨_, List.mem_singleton.mp h⟩
  -- The name of the scanner stands up to the first colon, and no name of a scanner has one in it.
  have hlabel : (Note.scanner x.task.label fault).message =
      ("Scanner " : Text) ++ (x.scanner.name ++ (":" : Text) ++
        (x.file ++ ((" failed: " : Text) ++ fault.message))) := by
    simp only [Note.message, task, List.append_assoc]
  unfold Scanner.blames Text.startsWith
  rw [hlabel, List.isPrefixOf_iff_prefix, List.append_assoc, List.prefix_append_right_inj]
  constructor
  · rintro ⟨rest, heq⟩
    exact Scanner.name_injective
      (Note.label_inj sc.hasNoColon_name x.scanner.hasNoColon_name heq).1
  · rintro rfl
    exact List.prefix_append _ _

namespace Plugin

variable {p : Plugin} {d : Disk} {n : Note}

/-- The notes on a file that is read are no failures of scanners. -/
theorem Reads.not_isFailure {relative : Text} {f : PluginFile} {ns : List Note}
    (h : p.Reads d relative f ns) (hn : n ∈ ns) : ¬n.IsFailure := by
  rintro ⟨label, fault, rfl⟩
  cases h <;> simp at hn

/-- The notes on a plugin that is read are no failures of scanners. -/
theorem not_isFailure_of_mem_contents {c : Contents} (hc : (p.contents d).outcome = .ok c)
    (hn : n ∈ (p.contents d).notes) : ¬n.IsFailure := by
  obtain ⟨hm, paths, hl, hf⟩ := exists_of_outcome_contents hc
  rw [notes_contents hm hl hf, List.mem_append, List.mem_flatMap] at hn
  rcases hn with hn | ⟨relative, hr, hn⟩
  · rintro ⟨label, fault, rfl⟩
    rcases isPassing_of_mem_collect hn with ⟨path, h⟩ | ⟨path, h⟩ <;> cases h
  · have hall := Attempt.exists_mapM_eq_ok_iff.mp ⟨_, Attempt.mapM_eq_ok_iff.mpr hf⟩
    obtain ⟨f, hfile⟩ := hall relative hr
    exact (reads_of_outcome hfile).not_isFailure hn

end Plugin

namespace ScanTask

/-- The notes on the shape of configurations do not depend on which scanners are on. -/
theorem notes_ofContents (s s' : ScannerSettings) (rules : RuleTables) (c : Contents) :
    (ofContents s rules c).2 = (ofContents s' rules c).2 := by
  -- The note is on the shape of the data, which is looked at before any scanner is.
  have hdata (data : Value) (note : Note) (tasks tasks' : List ScanTask) :
      (ofData data note tasks).2 = (ofData data note tasks').2 := by
    unfold ofData
    split
    · rfl
    · split <;> rfl
  have hfile (f : PluginFile) : (ofFile s rules f).2 = (ofFile s' rules f).2 := by
    unfold ofFile
    cases f.kind with
    | markdown => cases f.content <;> rfl
    | script => rfl
    | hooks => exact hdata _ _ _ _
    | servers => exact hdata _ _ _ _
    | other => rfl
  unfold ofContents
  dsimp only
  rw [List.flatMap_map, List.flatMap_map]
  congr 1
  funext f
  exact hfile f

/-- The notes on the shape of configurations are no failures of scanners. -/
theorem not_isFailure_of_mem_ofContents {s : ScannerSettings} {rules : RuleTables} {c : Contents}
    {n : Note} (h : n ∈ (ofContents s rules c).2) : ¬n.IsFailure := by
  have hdata {data : Value} {note : Note} {tasks : List ScanTask}
      (h : n ∈ (ofData data note tasks).2) : n = note := by
    unfold ofData at h
    split at h
    · cases h
    · split at h
      · cases h
      · exact List.mem_singleton.mp h
  rintro ⟨label, fault, rfl⟩
  obtain ⟨part, hpart, hn⟩ := List.mem_flatMap.mp h
  obtain ⟨f, -, rfl⟩ := List.mem_map.mp hpart
  unfold ofFile at hn
  cases hk : f.kind with
  | markdown =>
    rw [hk] at hn
    cases hc : f.content <;> simp [hc] at hn
  | script => simp [hk] at hn
  | hooks =>
    rw [hk] at hn
    cases hdata hn
  | servers =>
    rw [hk] at hn
    cases hdata hn
  | other => simp [hk] at hn

end ScanTask

/-- The files of a plugin that was read are not its manifest. -/
theorem Plugin.path_ne_of_mem_files {p : Plugin} {d : Disk} {c : Contents}
    (hc : (p.contents d).outcome = .ok c) {f : PluginFile} (hf : f ∈ c.files) :
    f.path ≠ c.manifest.path := by
  intro heq
  obtain ⟨hm, paths, hl, hfiles⟩ := Plugin.exists_of_outcome_contents hc
  obtain ⟨text, v, es, ⟨-, hplace, -⟩, -⟩ := Plugin.exists_of_manifest hm
  obtain ⟨relative, hr, hfile⟩ :=
    (Attempt.mem_iff_of_mapM_eq_ok (Attempt.mapM_eq_ok_iff.mpr hfiles)).mp hf
  rw [← heq, (Plugin.reads_of_outcome hfile).path_eq] at hplace
  exact Plugin.notMem_collect hl hplace hr

namespace Analyzer

/-- The analyzer with other scanners on. -/
def withScanners (a : Analyzer) (s : ScannerSettings) : Analyzer :=
  { a with config := { a.config with scanners := s } }

/-- With all scanners on, all scans are made. -/
theorem scans_withScanners_default (a : Analyzer) (c : Contents) :
    (a.withScanners {}).scans c = c.scans a.rules :=
  List.filter_eq_self.mpr fun x _ => x.scanner.isOn_default

variable {a : Analyzer} {p : Plugin} {d : Disk} {c : Contents}

/-- With some scanners on, a result has the evidence of all scanners without that of those that are
off. -/
theorem evidence_withScanners (hc : (p.contents d).outcome = .ok c) (s : ScannerSettings) :
    ((a.withScanners s).resultIn c (p.contents d).notes).evidence =
      ((a.withScanners {}).resultIn c (p.contents d).notes).evidence.filter fun e =>
        Scanner.spares s (Scanner.owns c e) := by
  have hfound : ((c.scans a.rules).flatMap (·.task.run.1)).filter (fun e =>
      Scanner.spares s (Scanner.owns c e)) =
      ((c.scans a.rules).filter (·.scanner.isOn s)).flatMap (·.task.run.1) :=
    filter_flatMap_eq fun x hx e he => Scanner.spares_of_iff
      (Contents.owns_eq_true_iff (fun f => Plugin.path_ne_of_mem_files hc) hx he)
  unfold resultIn
  rw [scans_withScanners_default]
  -- A result also drops what restricts nothing; which of the two is dropped first is no matter.
  change List.filter _ _ = List.filter _ (List.filter _ _)
  rw [List.filter_comm, hfound]
  rfl

/-- With some scanners on, a result has the errors of all scanners without those that blame one that
is off. -/
theorem errors_withScanners (hc : (p.contents d).outcome = .ok c) (s : ScannerSettings) :
    ((a.withScanners s).resultIn c (p.contents d).notes).errors =
      ((a.withScanners {}).resultIn c (p.contents d).notes).errors.filter fun error =>
        Scanner.spares s (Scanner.blames error) := by
  have hfailures : ((c.scans a.rules).flatMap (·.task.run.2)).filter (fun n =>
      Scanner.spares s (Scanner.blames n.message)) =
      ((c.scans a.rules).filter (·.scanner.isOn s)).flatMap (·.task.run.2) :=
    filter_flatMap_eq fun x _ n hn => Scanner.spares_of_iff (Scan.blames_message_iff hn)
  -- The other notes are the same, and blame no scanner.
  have hshapes : ((a.withScanners s).tasks c).2 = ((a.withScanners {}).tasks c).2 :=
    ScanTask.notes_ofContents s {} a.rules c
  have hothers : ((p.contents d).notes ++ ((a.withScanners {}).tasks c).2).filter (fun n =>
      Scanner.spares s (Scanner.blames n.message)) =
      (p.contents d).notes ++ ((a.withScanners {}).tasks c).2 := by
    refine List.filter_eq_self.mpr fun n hn => Scanner.spares_of_forall ?_
    rcases List.mem_append.mp hn with hn | hn
    · exact Note.blames_message_eq_false (Plugin.not_isFailure_of_mem_contents hc hn)
    · exact Note.blames_message_eq_false (ScanTask.not_isFailure_of_mem_ofContents hn)
  unfold resultIn
  rw [scans_withScanners_default, hshapes]
  change List.map _ _ = List.filter _ (List.map _ _)
  rw [List.filter_map]
  conv_rhs => arg 2; rw [Function.comp_def, List.filter_append, hothers, hfailures]
  rfl

end Analyzer

/-- Turning scanners off takes away what is theirs, and nothing else. Whichever scanners are on, an
analysis fails alike. If it gives a result with all scanners on, it gives one with any of them on:
its evidence is that of all scanners, in the same order, without the evidence of those that are off;
its errors are the same without those that blame a scanner that is off; its plugin, version, list of
surfaces and counts are the same, and no verdict is worse. -/
theorem toggles_independent (a : Analyzer) (s : ScannerSettings) (d : Disk) (path : Text) :
    (∀ f, (a.withScanners s).analyze d path = .error f ↔
      (a.withScanners {}).analyze d path = .error f) ∧
    ∀ r, (a.withScanners {}).analyze d path = .ok r →
      ∃ r' p c, (a.withScanners s).analyze d path = .ok r' ∧
        Plugin.open? d path a.config.files = .ok p ∧ (p.contents d).outcome = .ok c ∧
        r'.evidence = r.evidence.filter (fun e => Scanner.spares s (Scanner.owns c e)) ∧
        r'.errors = r.errors.filter (fun error => Scanner.spares s (Scanner.blames error)) ∧
        r'.plugin = r.plugin ∧ r'.version = r.version ∧ r'.declared = r.declared ∧
        r'.summary = r.summary ∧ ∀ t, r'.analyzed.on t ≤ r.analyzed.on t := by
  -- Which scanners are on counts only once the plugin is read.
  have hread (s : ScannerSettings) : (a.withScanners s).analyze d path =
      Plugin.open? d path a.config.files >>= fun p => (p.contents d).outcome >>= fun c =>
        a.config.workers.toInt.map fun _ => (a.withScanners s).resultIn c (p.contents d).notes :=
    (a.withScanners s).analyze_eq_scans d path
  constructor
  · intro f
    rw [hread s, hread {}]
    simp only [Attempt.bind_eq_error_iff, Attempt.map_eq_error_iff]
  · intro r h
    rw [hread {}] at h
    obtain ⟨p, hopen, h⟩ := Attempt.bind_eq_ok_iff.mp h
    obtain ⟨c, hc, h⟩ := Attempt.bind_eq_ok_iff.mp h
    obtain ⟨workers, hw, rfl⟩ := Attempt.map_eq_ok_iff.mp h
    have hevidence := Analyzer.evidence_withScanners (a := a) hc s
    refine ⟨(a.withScanners s).resultIn c (p.contents d).notes, p, c, ?_, hopen, hc, hevidence,
      Analyzer.errors_withScanners hc s, rfl, rfl, rfl, rfl, fun t => ?_⟩
    · rw [hread s, Attempt.bind_eq_ok_iff]
      refine ⟨p, hopen, Attempt.bind_eq_ok_iff.mpr ⟨c, hc, ?_⟩⟩
      rw [hw]
      rfl
    · -- Less evidence gives no worse verdicts.
      refine Evidence.verdicts_on_mono t fun e he _ => ?_
      have hmem : e ∈ ((a.withScanners s).resultIn c (p.contents d).notes).evidence := he
      rw [hevidence] at hmem
      exact (List.mem_filter.mp hmem).1

/-- All scanners but those for the manifest, the blocks of commands and the script files. -/
def someScanners : ScannerSettings :=
  { declaration := .bool false, codeBlock := .null, script := .bool false }

/-- With some scanners on, the plugin that has something for each of them loses the evidence of the
others, four pieces of ten. -/
theorem toggles_independent_furnished :
    ∃ r r' c, (bundledAnalyzer.withScanners {}).analyze furnishedDisk "/p" = .ok r ∧
      (bundledAnalyzer.withScanners someScanners).analyze furnishedDisk "/p" = .ok r' ∧
      r.evidence.length = 10 ∧ r'.evidence.length = 6 ∧
      r'.evidence = r.evidence.filter (fun e => Scanner.spares someScanners (Scanner.owns c e)) ∧
      r'.summary = r.summary ∧ ∀ t, r'.analyzed.on t ≤ r.analyzed.on t := by
  have hsome : ((bundledAnalyzer.withScanners someScanners).analyze furnishedDisk "/p").map
      (·.evidence.length) = .ok 6 := by
    decide +kernel
  obtain ⟨r, hr, hsources⟩ := Attempt.map_eq_ok_iff.mp sources_furnished
  have hlen : r.evidence.length = 10 := by
    rw [← List.length_map (·.source), hsources]
    rfl
  obtain ⟨r', hr', hlen'⟩ := Attempt.map_eq_ok_iff.mp hsome
  obtain ⟨r'', p, c, hr'', -, -, hevidence, -, -, -, -, hsummary, hverdicts⟩ :=
    (toggles_independent bundledAnalyzer someScanners furnishedDisk "/p").2 r hr
  cases hr'.symm.trans hr''
  exact ⟨r, r', c, hr, hr', hlen, hlen', hevidence, hsummary, hverdicts⟩

end SurfaceAudit
