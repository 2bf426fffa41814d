import SurfaceAudit.Proofs.FileLists
import SurfaceAudit.Proofs.Growth
import SurfaceAudit.Proofs.LetterCase
import SurfaceAudit.Proofs.Toggles
import SurfaceAudit.Proofs.Verdicts

/-!
# A script counts by its name

With the default settings and the bundled rules, the files that are scripts are those for which
there is evidence by their extension alone (`Script.isSome_fileEvidence?_iff`), since the extensions
in the settings are those in the table. So each file with the extension of a Python or shell script,
in any letter case, is evidence, whether it can be read or not, and no other file is evidence of
that kind (`scripts_always_count`).
-/

namespace SurfaceAudit

/-- A list of texts holds exactly its own. -/
theorem Value.holdsText_texts (ts : List Text) (t : Text) :
    (Value.list (ts.map .text)).holdsText t = .ok (decide (t ∈ ts)) := by
  have hholds : (ts.map Value.text).any (·.isText t) = decide (t ∈ ts) := by
    rw [Bool.eq_iff_iff, any_isText_iff, decide_eq_true_eq]
  exact congrArg Except.ok hholds

/-- No file is a script by its place. -/
theorem FileKind.ofName_ne_script (path extension : Text) : ofName path extension ≠ .script := by
  unfold ofName
  split
  · decide
  · split
    · decide
    · split <;> decide

/-- The kind of a file is a matter of two answers: whether its extension is one of documents, and
whether it is one of scripts. -/
theorem FileKind.ofPath_eq_of_holdsText {s : FileSettings} {path : Text}
    {isMarkdown isScript : Bool}
    (hmarkdown : s.markdownExtensions.holdsText (Path.extension path).lower = .ok isMarkdown)
    (hscript : s.scriptExtensions.holdsText (Path.extension path).lower = .ok isScript) :
    ofPath s path = .ok (if isMarkdown then .markdown else if isScript then .script
      else ofName path (Path.extension path).lower) := by
  unfold ofPath
  dsimp only
  rw [hmarkdown, hscript]
  cases isMarkdown with
  | true => rfl
  | false => cases isScript <;> rfl

namespace Script

/-- The extensions of scripts for which an interpreter is needed that is not everywhere. -/
def interpretedExtensions : List Text := [".py", ".sh", ".bash"]

/-- The extension of a path is that of such a script, in any letter case. -/
def IsInterpreted (path : Text) : Prop :=
  ∃ s ∈ interpretedExtensions, List.Forall₂ Point.IsCaseOf (Path.extension path) s

instance (path : Text) : Decidable (IsInterpreted path) :=
  inferInstanceAs (Decidable (∃ s ∈ interpretedExtensions, _))

/-- In small letters, the extension of such a script is in the list. -/
theorem isInterpreted_iff {path : Text} :
    IsInterpreted path ↔ (Path.extension path).lower ∈ interpretedExtensions := by
  have hsmall : ∀ s ∈ interpretedExtensions, ∀ q ∈ s, q.isOwnSmall = true := by decide
  constructor
  · rintro ⟨s, hs, hcase⟩
    rwa [(Text.lower_eq_iff (hsmall s hs) _).mpr hcase]
  · intro h
    exact ⟨_, h, (Text.lower_eq_iff (hsmall _ h) _).mp rfl⟩

/-- The bundled rules for the extensions of scripts. -/
theorem template_of_mem {extension : Text} :
    (extension ∈ interpretedExtensions →
      (Bundled.tables.scripts.get? extension).map (·.template) = some .reviewDesktop) ∧
    (extension ∈ nodeExtensions →
      (Bundled.tables.scripts.get? extension).map (·.template) = some .allOk) := by
  have hinterpreted : ∀ t ∈ interpretedExtensions,
      (Bundled.tables.scripts.get? t).map (·.template) = some .reviewDesktop := by decide
  have hnode : ∀ t ∈ nodeExtensions,
      (Bundled.tables.scripts.get? t).map (·.template) = some .allOk := by decide
  exact ⟨hinterpreted extension, hnode extension⟩

/-- There are bundled rules for no other extensions. -/
theorem isSome_get?_iff {extension : Text} :
    (Bundled.tables.scripts.get? extension).isSome = true ↔
      extension ∈ interpretedExtensions ∨ extension ∈ nodeExtensions := by
  constructor
  · intro h
    obtain ⟨r, hr⟩ := Option.isSome_iff_exists.mp h
    obtain ⟨e, he, -⟩ := Option.map_eq_some_iff.mp hr
    have hkey : e.1 = extension := by simpa using List.find?_some he
    have hkeys : ∀ e ∈ Bundled.tables.scripts,
        e.1 ∈ interpretedExtensions ∨ e.1 ∈ nodeExtensions := by decide
    exact hkey ▸ hkeys e (List.mem_of_find?_eq_some he)
  · have hsome {t : Template} (h : (Bundled.tables.scripts.get? extension).map (·.template) =
        some t) : (Bundled.tables.scripts.get? extension).isSome = true := by
      rw [← Option.isSome_map, h]
      rfl
    rintro (h | h)
    · exact hsome (template_of_mem.1 h)
    · exact hsome (template_of_mem.2 h)

/-- The evidence that a file is a script by its name is on the file, and it restricts a surface
exactly if an interpreter is needed that is not everywhere: then the desktop needs a review. -/
theorem of_fileEvidence? {path : Text} {e : Evidence}
    (h : fileEvidence? Bundled.tables path = some e) :
    e.file = path ∧ (e.isInformational = false ↔ IsInterpreted path) ∧
      (IsInterpreted path → e.impact.on .desktop = .needsReview) := by
  obtain ⟨r, hr, rfl⟩ := Option.map_eq_some_iff.mp h
  have htemplate {t : Template}
      (ht : (Bundled.tables.scripts.get? (Path.extension path).lower).map (·.template) = some t) :
      r.template = t := by
    rw [hr] at ht
    exact Option.some.inj ht
  refine ⟨rfl, ?_⟩
  rw [isInterpreted_iff]
  change (r.template.impact.isNone = false ↔ _) ∧ (_ → r.template.impact.on .desktop = _)
  -- The scripts that are known are those with an interpreter to be installed and those of the
  -- runtime that is everywhere.
  rcases isSome_get?_iff.mp (Option.isSome_iff_exists.mpr ⟨r, hr⟩) with hin | hnode
  · rw [htemplate (template_of_mem.1 hin)]
    exact ⟨⟨fun _ => hin, fun _ => by decide⟩, fun _ => rfl⟩
  · have hout : (Path.extension path).lower ∉ interpretedExtensions := fun hin => by
      cases (htemplate (template_of_mem.1 hin)).symm.trans (htemplate (template_of_mem.2 hnode))
    rw [htemplate (template_of_mem.2 hnode)]
    exact ⟨⟨fun hinfo => absurd hinfo (by decide), fun hin => absurd hin hout⟩,
      fun hin => absurd hin hout⟩

/-- A file is a script with the default settings exactly if its extension, in small letters, is one
of those in the rules: none of them is that of a document, and a name alone makes no script. -/
theorem ofPath_eq_script_iff (path : Text) :
    FileKind.ofPath {} path = .ok .script ↔
      (Path.extension path).lower ∈ interpretedExtensions ++ nodeExtensions := by
  -- The settings have the extensions in an order of their own.
  let listed : List Text := [".py", ".sh", ".bash", ".mjs", ".js", ".cjs"]
  have hmarkdown := Value.holdsText_texts [".md"] (Path.extension path).lower
  have hscript := Value.holdsText_texts listed (Path.extension path).lower
  have hkind := FileKind.ofPath_eq_of_holdsText (s := {}) hmarkdown hscript
  have hlisted : (Path.extension path).lower ∈ listed ↔
      (Path.extension path).lower ∈ interpretedExtensions ++ nodeExtensions := by
    have hsub : ∀ t ∈ listed, t ∈ interpretedExtensions ++ nodeExtensions := by decide
    have hsuper : ∀ t ∈ interpretedExtensions ++ nodeExtensions, t ∈ listed := by decide
    exact ⟨hsub _, hsuper _⟩
  have hnone : ∀ t ∈ listed, t ∉ ([".md"] : List Text) := by decide
  rw [hkind, ← hlisted, Except.ok.injEq]
  constructor
  · intro h
    split at h
    · cases h
    · split at h
      · exact of_decide_eq_true ‹_›
      · exact absurd h (FileKind.ofName_ne_script path _)
  · intro h
    rw [decide_eq_false (hnone _ h), decide_eq_true h]
    rfl

/-- A file is a script with the default settings exactly if there is evidence for it by its name. -/
theorem isSome_fileEvidence?_iff (path : Text) :
    FileKind.ofPath {} path = .ok .script ↔
      (fileEvidence? Bundled.tables path).isSome = true := by
  unfold fileEvidence?
  rw [ofPath_eq_script_iff, Option.isSome_map, isSome_get?_iff, List.mem_append]

/-- There is evidence for each file with the extension of such a script. -/
theorem IsInterpreted.exists_fileEvidence? {path : Text} (h : IsInterpreted path) :
    ∃ e, fileEvidence? Bundled.tables path = some e := by
  rw [← Option.isSome_iff_exists]
  unfold fileEvidence?
  rw [Option.isSome_map, isSome_get?_iff]
  exact .inl (isInterpreted_iff.mp h)

/-- The evidence for some names that restricts a surface is on those of such scripts, in their
order. -/
theorem map_file_filterMap_fileEvidence? (paths : List Text) :
    ((paths.filterMap (fileEvidence? Bundled.tables)).filter (!·.isInformational)).map (·.file) =
      paths.filter (IsInterpreted ·) := by
  -- Name by name: the evidence is kept exactly if the name is that of such a script.
  have hone (path : Text) :
      ((fileEvidence? Bundled.tables path).filter (!·.isInformational)).map (·.file) =
        Option.guard (fun p => decide (IsInterpreted p)) path := by
    cases he : fileEvidence? Bundled.tables path with
    | none =>
      have hnot : ¬IsInterpreted path := fun h => by
        obtain ⟨e, hsome⟩ := h.exists_fileEvidence?
        cases he.symm.trans hsome
      simp [Option.guard, hnot]
    | some e =>
      obtain ⟨hfile, hrestricts, -⟩ := of_fileEvidence? he
      by_cases hp : IsInterpreted path
      · simp [Option.guard, hp, hrestricts.mpr hp, hfile]
      · have hinfo : e.isInformational = true := by
          rw [← Bool.not_eq_false]
          exact fun hfalse => hp (hrestricts.mp hfalse)
        simp [Option.guard, hp, hinfo]
  rw [List.filter_filterMap, List.map_filterMap, ← List.filterMap_eq_filter]
  exact List.filterMap_congr fun path _ => hone path

/-- Of files with the kinds of their paths, only the scripts have evidence by their names. -/
theorem flatMap_fileEvidence? {files : List PluginFile}
    (h : ∀ f ∈ files, FileKind.ofPath {} f.path = .ok f.kind) :
    ((files.filter (·.kind = .script)).flatMap fun f =>
      (fileEvidence? Bundled.tables f.path).toList) =
      (files.map (·.path)).filterMap (fileEvidence? Bundled.tables) := by
  rw [List.filterMap_map, ← List.filterMap_eq_flatMap_toList, List.filterMap_filter]
  refine List.filterMap_congr fun f hf => ?_
  have hiff := isSome_fileEvidence?_iff f.path
  rw [h f hf, Except.ok.injEq] at hiff
  by_cases hk : f.kind = .script
  · rw [if_pos (decide_eq_true hk)]
    rfl
  · rw [if_neg (by simp [hk])]
    exact (Option.not_isSome_iff_eq_none.mp fun hsome => hk (hiff.mpr hsome)).symm

end Script

/-- Only scripts are scanned for scripts. -/
theorem FileKind.script_mem_scanners_iff (k : FileKind) :
    Scanner.script ∈ k.scanners ↔ k = .script := by
  cases k <;> decide

namespace PluginFile

/-- The only scan of a file for scripts is on its name, and only scripts have one. -/
theorem filter_scans_script (rules : RuleTables) (f : PluginFile) :
    (f.scans rules).filter (·.scanner = .script) =
      if f.kind = .script then [⟨.script, f.path, .ok (Script.fileEvidence? rules f.path).toList⟩]
      else [] := by
  split
  · rename_i hkind
    unfold scans
    rw [hkind]
    dsimp only
    cases f.content with
    | none => rfl
    | some content => rfl
  · rename_i hkind
    rw [List.filter_eq_nil_iff]
    intro x hx hscanner
    have hmem : x.scanner ∈ f.kind.scanners :=
      (scanners_sublist rules f).subset (List.mem_map_of_mem hx)
    rw [of_decide_eq_true hscanner, FileKind.script_mem_scanners_iff] at hmem
    exact hkind hmem

end PluginFile

/-- What a scan finds is evidence of scripts exactly if the scan is one for scripts. -/
theorem Scan.source_eq_script_iff {x : Scan} (h : x.scanner.Finds x.file x.task.run.1)
    {e : Evidence} (he : e ∈ x.task.run.1) : e.source = .script ↔ x.scanner = .script := by
  rcases h.of_mem he with hruled | ⟨hscanner, declared, hdeclared⟩
  · rw [hruled.source_eq]
    cases x.scanner <;> decide
  · rw [hdeclared.source_eq]
    rcases hscanner with hs | hs <;> rw [hs] <;> decide

namespace Analyzer

variable {a : Analyzer} {d : Disk} {path : Text} {c : Contents} {found : List Evidence}
  {notes : List Note}

/-- The scans for scripts are those of the scripts, each by its name. -/
theorem filter_scans_script (hon : a.config.scanners.script.isTrue = true) (c : Contents) :
    (a.scans c).filter (·.scanner = .script) = (c.files.filter (·.kind = .script)).map fun f =>
      ⟨.script, f.path, .ok (Script.fileEvidence? a.rules f.path).toList⟩ := by
  -- A scan for scripts is run if that scanner is on, which it is, so the settings take none away.
  have hkept (x : Scan) : (decide (x.scanner = .script) && x.scanner.isOn a.config.scanners) =
      decide (x.scanner = .script) := by
    by_cases hs : x.scanner = .script
    · rw [hs]
      exact (Bool.true_and _).trans hon
    · rw [decide_eq_false hs, Bool.false_and]
  have hmanifest : ¬decide (c.manifest.scan.scanner = .script) = true := Bool.false_ne_true
  unfold scans Contents.scans
  rw [List.filter_filter, List.filter_congr fun x _ => hkept x, List.filter_cons, if_neg hmanifest,
    List.filter_flatMap]
  induction c.files with
  | nil => rfl
  | cons f r ih =>
    rw [List.flatMap_cons, PluginFile.filter_scans_script, ih, List.filter_cons]
    by_cases hk : f.kind = .script
    · rw [if_pos hk, if_pos (decide_eq_true hk)]
      rfl
    · rw [if_neg hk, if_neg (by simp [hk]), List.nil_append]

/-- The evidence of scripts among what is found is what the names of the scripts give, whatever the
rest of a plugin is and whether the scripts can be read or not. -/
theorem filter_found_script (hon : a.config.scanners.script.isTrue = true)
    (h : a.survey d path = .ok (c, found, notes)) :
    found.filter (·.source = .script) =
      (c.files.filter (·.kind = .script)).flatMap
        fun f => (Script.fileEvidence? a.rules f.path).toList := by
  have hsource : ∀ x ∈ a.scans c, ∀ e ∈ x.task.run.1,
      decide (e.source = .script) = decide (x.scanner = .script) := by
    intro x hx e he
    have hfinds := Contents.finds_of_mem_scans (List.mem_of_mem_filter hx)
    exact decide_eq_decide.mpr (Scan.source_eq_script_iff hfinds he)
  rw [found_eq_scans h, filter_flatMap_eq hsource, filter_scans_script hon, List.flatMap_map]
  rfl

end Analyzer

/-- A survey lists the files of a plugin, and each has the kind that the settings give its path. -/
theorem Analyzer.paths_of_survey {a : Analyzer} {d : Disk} {path : Text} {c : Contents}
    {found : List Evidence} {notes : List Note} (h : a.survey d path = .ok (c, found, notes)) :
    ∃ p paths, Plugin.open? d path a.config.files = .ok p ∧ (p.collect d).outcome = .ok paths ∧
      c.files.map (·.path) = paths ∧
      ∀ f ∈ c.files, FileKind.ofPath a.config.files f.path = .ok f.kind := by
  obtain ⟨p, hopen, hc, -⟩ := exists_of_survey h
  obtain ⟨-, paths, hl, -⟩ := Plugin.exists_of_outcome_contents hc
  obtain ⟨hpaths, hkinds⟩ := Plugin.paths_of_outcome_contents hc hl
  refine ⟨p, paths, hopen, hl, hpaths, fun f hf => ?_⟩
  rw [← Plugin.settings_of_open? hopen]
  exact hkinds f hf

/-- A script counts by its name. With the default settings and the bundled rules, a file is a script
exactly if there is evidence for its name. If an analysis with them and with the scanner for scripts
gives a result, each listed file with the extension of a Python or shell script, in any letter
case, has exactly one piece of evidence of that source, whatever its content is; no other file has
any; and as soon as there is one such file, the desktop needs a review. -/
theorem scripts_always_count :
    (∀ path, FileKind.ofPath {} path = .ok .script ↔
      (Script.fileEvidence? Bundled.tables path).isSome = true) ∧
    ∀ (a : Analyzer) (d : Disk) (path : Text) (r : Result), a.config.files = {} →
      a.rules = Bundled.tables → a.config.scanners.script.isTrue = true → d.root.IsProper →
      a.analyze d path = .ok r → ∃ p paths, Plugin.open? d path a.config.files = .ok p ∧
        (p.collect d).outcome = .ok paths ∧ paths.Nodup ∧
        (r.evidence.filter (·.source = .script)).map (·.file) =
          paths.filter (Script.IsInterpreted ·) ∧
        ∀ relative ∈ paths, Script.IsInterpreted relative →
          .needsReview ≤ r.analyzed.on .desktop := by
  refine ⟨Script.isSome_fileEvidence?_iff, fun a d path r hfiles hrules hon hproper h => ?_⟩
  obtain ⟨c, found, notes, hs, rfl⟩ := Analyzer.exists_of_analyze h
  obtain ⟨p, paths, hopen, hl, hpaths, hkinds⟩ := Analyzer.paths_of_survey hs
  -- All the evidence of this source is for the names of the files, in the order of the list.
  have hscripts : found.filter (·.source = .script) =
      paths.filterMap (Script.fileEvidence? Bundled.tables) := by
    rw [Analyzer.filter_found_script hon hs, hrules, ← hpaths]
    exact Script.flatMap_fileEvidence? (hfiles ▸ hkinds)
  refine ⟨p, paths, hopen, hl, ?_, ?_, fun relative hr hi => ?_⟩
  · exact (Plugin.pairwise_collect hproper hl).imp fun h => h.2
  · change ((found.filter (!·.isInformational)).filter (·.source = .script)).map (·.file) = _
    rw [List.filter_comm, hscripts, Script.map_file_filterMap_fileEvidence?]
  · obtain ⟨e, he⟩ := hi.exists_fileEvidence?
    have hmem : e ∈ found.filter (·.source = .script) :=
      hscripts ▸ List.mem_filterMap.mpr ⟨relative, hr, he⟩
    rw [Analyzer.resultOf_analyzed, ← (Script.of_fileEvidence? he).2.2 hi]
    exact Evidence.on_le_verdicts (List.mem_of_mem_filter hmem) .desktop

/-- A disk with a plugin whose files have extensions that are easily mistaken: in capital letters on
a file that is no text, after another extension, on a directory, and one that is a whole name. -/
def motleyDisk : Disk where
  root := .directory [("p", .directory
    [(".sh", .file []), ("A.PY", .file [255]), ("b.md.Sh", .file []), ("c.py.mjs", .file []),
    ("d.py", .directory [("e", .file [])]),
    ("plugin.json", .file "\x7b\"name\":\"x\"\x7d".toUTF8.toList)])]
  current := []

/-- Two of the files are scripts that count, though one of them cannot be read. -/
theorem files_motley : (bundledAnalyzer.analyze motleyDisk "/p").map (fun r =>
    ((r.evidence.filter (·.source = .script)).map (·.file), r.errors.length)) =
      .ok (["A.PY", "b.md.Sh"], 1) := by
  decide +kernel

/-- Where extensions are easily mistaken, the scripts that count are those with the extension of a
Python or shell script, and the desktop needs a review. -/
theorem scripts_always_count_motley : motleyDisk.root.IsProper ∧
    ∃ (r : Result) (p : Plugin) (paths : List Text),
      bundledAnalyzer.analyze motleyDisk "/p" = .ok r ∧
      (p.collect motleyDisk).outcome = .ok paths ∧
      paths.filter (Script.IsInterpreted ·) = ["A.PY", "b.md.Sh"] ∧
      .needsReview ≤ r.analyzed.on .desktop := by
  have hproper : motleyDisk.root.IsProper := by decide +kernel
  obtain ⟨r, hr, hfiles⟩ := Attempt.map_eq_ok_iff.mp files_motley
  obtain ⟨p, paths, -, hl, -, hnamed, hdesktop⟩ :=
    scripts_always_count.2 bundledAnalyzer motleyDisk "/p" r rfl rfl rfl hproper hr
  have hcounted : paths.filter (Script.IsInterpreted ·) = ["A.PY", "b.md.Sh"] :=
    hnamed.symm.trans (Prod.mk.inj hfiles).1
  have hfirst : ("A.PY" : Text) ∈ paths.filter (Script.IsInterpreted ·) :=
    hcounted ▸ List.mem_cons_self
  obtain ⟨hlisted, hinterpreted⟩ := List.mem_filter.mp hfirst
  exact ⟨hproper, r, p, paths, hr, hl, hcounted,
    hdesktop _ hlisted (of_decide_eq_true hinterpreted)⟩

end SurfaceAudit
