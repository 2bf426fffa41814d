import SurfaceAudit.Proofs.Defects
import SurfaceAudit.Proofs.Scanners
import SurfaceAudit.Proofs.Unseen

/-!
# The order of the evidence

In a tree whose directories have each name once, a walk finds each file once
(`Listing.nodup_files_walk`), so the paths that are listed increase strictly
(`Plugin.pairwise_collect`). The evidence follows them: first that of the manifest, and then a block
for each file, in which each scanner for its kind has its batch (`PluginFile.exists_batches`).
Dropping evidence without impact keeps all that.
-/

namespace SurfaceAudit

namespace Text

/-- A text comes before another one. -/
abbrev Lt (s t : Text) : Prop := Le s t ∧ s ≠ t

/-- Distinct texts that are put in order increase strictly. -/
theorem pairwise_sort {ts : List Text} (h : ts.Nodup) : (sort ts).Pairwise Lt := by
  rw [sort_eq]
  have hle : (ts.insertionSort Le).Pairwise Le := List.pairwise_insertionSort Le ts
  have hne : (ts.insertionSort Le).Nodup := (List.perm_insertionSort Le ts).nodup_iff.mpr h
  exact hle.and hne

/-- Putting texts in order neither adds one nor loses one. -/
theorem mem_sort {ts : List Text} {t : Text} : t ∈ sort ts ↔ t ∈ ts := by
  rw [sort_eq]
  exact List.mem_insertionSort Le

end Text

/-- Names that are names are told from the path that they make. -/
theorem Path.ofNames_injective {ns ms : List Text} (hn : ∀ n ∈ ns, IsName n)
    (hm : ∀ m ∈ ms, IsName m) (h : ofNames ns = ofNames ms) : ns = ms := by
  calc ns = ns.flatMap names := (flatMap_names hn).symm
    _ = names (ofNames ns) := (names_ofNames ns).symm
    _ = names (ofNames ms) := by rw [h]
    _ = ms.flatMap names := names_ofNames ms
    _ = ms := flatMap_names hm

/-- What is in a proper tree is proper. -/
theorem Node.IsProper.at? {n m : Node} {q : List Text} (h : n.IsProper) (hm : n.at? q = some m) :
    m.IsProper := by
  induction q generalizing n with
  | nil =>
    cases hm
    exact h
  | cons name r ih =>
    obtain ⟨es, k, rfl, hk, hr⟩ := Node.exists_directory_of_at? hm
    obtain ⟨e, he, rfl⟩ := Option.map_eq_some_iff.mp hk
    cases h with
    | directory _ _ inner => exact ih (inner e (List.mem_of_find?_eq_some he)) hr

/-- What is at a path in a proper tree is proper. -/
theorem Disk.isProper_of_find? {d : Disk} (hd : d.root.IsProper) {names : List Text} {n : Node}
    (hn : d.find? (Path.absolute names) = some n) : n.IsProper := by
  obtain ⟨q, hq⟩ := follow_of_find? hn
  exact hd.at? (at?_of_follow linkLimit hq)

namespace Listing

/-- The files that a walk finds at an entry of a directory, or below it. -/
def entryFiles (g : Guide) (here : List Text) (e : Text × Node) : List Text :=
  ownFiles here e ++ if g.enters e.1 then (walk g (here ++ [e.1]) e.2).files else []

/-- The files in a directory, sorted by the entries that they belong to. -/
theorem perm_files_walk (g : Guide) (here : List Text) (es : List (Text × Node)) :
    ((walk g here (.directory es)).files).Perm (es.flatMap (entryFiles g here)) := by
  rw [files_walk]
  exact List.flatMap_append_perm es (ownFiles here) _

/-- The path of a file at an entry goes on with the name of the entry. -/
theorem exists_of_mem_entryFiles {g : Guide} {here : List Text} {e : Text × Node}
    (he : e.2.IsProper) {f : Text} (hf : f ∈ entryFiles g here e) :
    ∃ r, f = Path.ofNames (here ++ e.1 :: r) ∧ ∀ m ∈ r, Path.IsName m := by
  rcases List.mem_append.mp hf with hf | hf
  · unfold ownFiles at hf
    split at hf
    · exact ⟨[], List.mem_singleton.mp hf, fun m hm => (nomatch hm)⟩
    · exact absurd hf List.not_mem_nil
  · split at hf
    · obtain ⟨r, -, rfl, -, hr, -⟩ := exists_of_mem_files_walk g he hf
      exact ⟨r, by rw [List.append_assoc, List.singleton_append], hr⟩
    · exact absurd hf List.not_mem_nil

/-- An entry has each file once if the walk below it finds each once. -/
theorem nodup_entryFiles {g : Guide} {here : List Text} {e : Text × Node}
    (h : (walk g (here ++ [e.1]) e.2).files.Nodup) : (entryFiles g here e).Nodup := by
  have hbelow : (if g.enters e.1 then (walk g (here ++ [e.1]) e.2).files else []).Nodup := by
    split
    · exact h
    · exact List.nodup_nil
  -- An entry is a file, or a directory with files in it, or neither.
  obtain ⟨name, n⟩ := e
  unfold entryFiles
  cases n with
  | file content =>
    have hnone : (if g.enters name then (walk g (here ++ [name]) (.file content)).files else []) =
        [] := by
      split
      · rfl
      · rfl
    rw [hnone, List.append_nil]
    exact List.nodup_singleton _
  | link target => exact hbelow
  | directory ks => exact hbelow

/-- A walk through a proper tree finds each file once. -/
theorem nodup_files_walk (g : Guide) {n : Node} (h : n.IsProper) {here : List Text}
    (hhere : ∀ name ∈ here, Path.IsName name) : (walk g here n).files.Nodup := by
  induction h generalizing here with
  | file content => exact List.nodup_nil
  | link target => exact List.nodup_nil
  | @directory es names once inner ih =>
    have hnamed {e : Text × Node} (he : e ∈ es) {r : List Text} (hr : ∀ m ∈ r, Path.IsName m) :
        ∀ m ∈ here ++ e.1 :: r, Path.IsName m := by
      intro m hm
      rcases List.mem_append.mp hm with hm | hm
      · exact hhere m hm
      · exact (List.forall_mem_cons.mpr ⟨names e he, hr⟩) m hm
    rw [(perm_files_walk g here es).nodup_iff, List.nodup_flatMap]
    constructor
    · intro e he
      exact nodup_entryFiles (ih e he (hnamed he fun m hm => (nomatch hm)))
    · -- A path tells the name of the entry that it goes through, and no two entries have the same.
      refine (List.pairwise_map.mp once).imp_of_mem ?_
      intro e e' he he' hne
      rw [Function.onFun, List.disjoint_left]
      intro f hf hf'
      obtain ⟨r, hr, hnames⟩ := exists_of_mem_entryFiles (inner e he) hf
      obtain ⟨r', hr', hnames'⟩ := exists_of_mem_entryFiles (inner e' he') hf'
      have heq : here ++ e.1 :: r = here ++ e'.1 :: r' :=
        Path.ofNames_injective (hnamed he hnames) (hnamed he' hnames') (hr.symm.trans hr')
      exact hne (List.cons.inj (List.append_cancel_left heq)).1

end Listing

namespace Plugin

variable {p : Plugin} {d : Disk}

/-- The manifest in use is not among the files that are listed. -/
theorem notMem_collect {paths : List Text} (h : (p.collect d).outcome = .ok paths) {place : Text}
    (hplace : p.manifestPlace? d = .ok (some place)) : place ∉ paths := by
  rw [outcome_collect] at h
  obtain ⟨names, -, h⟩ := Attempt.bind_eq_ok_iff.mp h
  obtain ⟨skipped, -, h⟩ := Attempt.bind_eq_ok_iff.mp h
  rw [hplace] at h
  cases h
  rw [pathsIn, Text.mem_sort, List.mem_filter]
  simp

/-- The paths of a plugin in a proper tree increase strictly. -/
theorem pairwise_collect (hd : d.root.IsProper) {paths : List Text}
    (h : (p.collect d).outcome = .ok paths) : paths.Pairwise Text.Lt := by
  rw [outcome_collect] at h
  obtain ⟨names, -, h⟩ := Attempt.bind_eq_ok_iff.mp h
  obtain ⟨skipped, -, h⟩ := Attempt.bind_eq_ok_iff.mp h
  obtain ⟨manifest, -, rfl⟩ := Attempt.map_eq_ok_iff.mp h
  have hnodup : (p.listing d skipped).files.Nodup := by
    unfold listing
    split
    · rename_i n hn
      exact Listing.nodup_files_walk _ (Disk.isProper_of_find? hd hn) fun name hm => (nomatch hm)
    · exact List.nodup_nil
  exact Text.pairwise_sort (hnodup.filter _)

/-- A file that was read has the kind that its path has. -/
theorem Reads.kindOf_eq {relative : Text} {f : PluginFile} {ns : List Note}
    (h : p.Reads d relative f ns) : p.kindOf relative = .ok f.kind := by
  cases h <;> assumption

end Plugin

/-- The evidence of a file is arranged as its kind demands: in batches, one for each scanner for the
kind, and each such as the scanner may find. -/
def FileKind.Arranges (k : FileKind) (file : Text) (es : List Evidence) : Prop :=
  ∃ batches, List.Forall₂ (fun sc batch => Scanner.Finds file sc batch) k.scanners batches ∧
    es = batches.flatten

/-- Scans of a file by some of the scanners in a list, in their order, give a batch for each scanner
in the list. -/
theorem Scan.exists_batches {file : Text} {scs : List Scanner} {xs : List Scan}
    (hs : (xs.map (·.scanner)).Sublist scs)
    (h : ∀ x ∈ xs, x.scanner.Finds file x.task.run.1) :
    ∃ batches, List.Forall₂ (fun sc batch => Scanner.Finds file sc batch) scs batches ∧
      xs.flatMap (·.task.run.1) = batches.flatten := by
  induction scs generalizing xs with
  | nil =>
    rw [List.sublist_nil, List.map_eq_nil_iff] at hs
    subst hs
    exact ⟨[], .nil, rfl⟩
  | cons sc r ih =>
    rcases List.sublist_cons_iff.mp hs with hs | ⟨scs', heq, hs⟩
    · -- The scanner is not among those of the scans, and its batch is empty.
      obtain ⟨batches, hbatches, heq⟩ := ih hs h
      exact ⟨[] :: batches, .cons (.nil file sc) hbatches, heq⟩
    · obtain ⟨x, xs', rfl, hsc, rfl⟩ := List.map_eq_cons_iff.mp heq
      obtain ⟨batches, hbatches, heq⟩ := ih hs fun y hy => h y (List.mem_cons_of_mem x hy)
      refine ⟨x.task.run.1 :: batches, .cons (hsc ▸ h x List.mem_cons_self) hbatches, ?_⟩
      rw [List.flatMap_cons, heq, List.flatten_cons]

namespace FileKind

variable {k : FileKind} {file : Text} {es : List Evidence}

/-- Evidence of a file stays arranged if some of it is dropped. -/
theorem Arranges.filter (h : k.Arranges file es) (f : Evidence → Bool) :
    k.Arranges file (es.filter f) := by
  obtain ⟨batches, hbatches, rfl⟩ := h
  refine ⟨batches.map (List.filter f), ?_, List.filter_flatten⟩
  rw [List.forall₂_map_right_iff]
  exact hbatches.imp fun _ _ hfinds => hfinds.sublist List.filter_sublist

end FileKind

/-- What the scanners that are on find in a file is arranged. -/
theorem PluginFile.arranges_scans (rules : RuleTables) (s : ScannerSettings) (f : PluginFile) :
    f.kind.Arranges f.path
      (((f.scans rules).filter (·.scanner.isOn s)).flatMap (·.task.run.1)) := by
  refine Scan.exists_batches ?_ fun x hx => finds_of_mem_scans (List.mem_filter.mp hx).1
  exact (List.filter_sublist.map _).trans (scanners_sublist rules f)

/-- The evidence is arranged by files and scanners. On a disk whose directories have each name once,
if an analysis gives a result, then the evidence is first at most one list of surfaces, on the
manifest, and then a block for each file in the order of the paths, which increase strictly and are
not that of the manifest. The block of a file has only evidence on the file, in a batch for each
scanner for its kind: in a document commands on lines that increase, and then tools with distinct
signals and at most one list of surfaces; in a script at most the script itself, and then imports
with distinct signals on lines that do not decrease; in a hook configuration hooks, and in a server
configuration servers. -/
theorem evidence_arranged (a : Analyzer) (d : Disk) (path : Text) (r : Result)
    (hd : d.root.IsProper) (h : a.analyze d path = .ok r) :
    ∃ p m paths surfaces blocks, Plugin.open? d path a.config.files = .ok p ∧
      p.manifest d = .ok m ∧ (p.collect d).outcome = .ok paths ∧
      paths.Pairwise Text.Lt ∧ m.path ∉ paths ∧
      r.evidence = surfaces ++ blocks.flatten ∧ Scanner.declaration.Finds m.path surfaces ∧
      List.Forall₂ (fun relative block => ∃ kind, p.kindOf relative = .ok kind ∧
        kind.Arranges relative block) paths blocks := by
  obtain ⟨c, found, notes, hs, rfl⟩ := Analyzer.exists_of_analyze h
  obtain ⟨p, m, paths, files, hopen, hm, hl, hf, hfound⟩ := Analyzer.of_survey hs
  obtain ⟨text, v, es, ⟨-, hplace, -⟩, -⟩ := Plugin.exists_of_manifest hm
  let keep : Evidence → Bool := fun e => !e.isInformational
  let block (f : PluginFile) : List Evidence :=
    ((f.scans a.rules).filter (·.scanner.isOn a.config.scanners)).flatMap (·.task.run.1)
  -- The evidence of the files is that of the blocks in a row; what is only told is left out of
  -- each.
  have hfiles : files.flatMap (ScanTask.evidenceIn a.config.scanners a.rules) =
      (files.map block).flatten := by
    rw [← List.flatMap_def]
    congr 1
    funext f
    unfold ScanTask.evidenceIn
    rw [ScanTask.ofFile_eq, List.flatMap_map]
  have hsurfaces : Scanner.declaration.Finds m.path
      ((ScanTask.ofManifest a.config.scanners m).flatMap (·.run.1)) := by
    rw [ScanTask.ofManifest_eq, List.flatMap_map]
    have hall : ([m.scan].flatMap (·.task.run.1)) = m.scan.task.run.1 := List.flatMap_singleton _ _
    refine m.finds_scan.sublist (hall ▸ ?_)
    exact List.filter_sublist.flatMap _
  refine ⟨p, m, paths, _, (files.map block).map (List.filter keep), hopen, hm, hl,
    Plugin.pairwise_collect hd hl, Plugin.notMem_collect hl hplace, ?_,
    hsurfaces.sublist (List.filter_sublist (p := keep)), ?_⟩
  · change found.filter keep = _
    rw [hfound, List.filter_append, hfiles, List.filter_flatten]
  · rw [List.forall₂_map_right_iff, List.forall₂_map_right_iff]
    refine hf.imp fun relative f hfile => ?_
    have hreads := Plugin.reads_of_outcome hfile
    refine ⟨f.kind, hreads.kindOf_eq, FileKind.Arranges.filter ?_ keep⟩
    rw [← hreads.path_eq]
    exact f.arranges_scans a.rules a.config.scanners

/-- A disk with a plugin that has something for each scanner. -/
def furnishedDisk : Disk where
  root := .directory [("p", .directory
    [(".mcp.json", .file "\x7b\"s\":\"bash\"\x7d".toUTF8.toList),
    ("SKILL.md", .file
      "---\nallowed-tools: Bash\ntargets: [cowork]\n---\n~~~\nuv run x\nbash y\n~~~\n".toUTF8.toList),
    ("a.py", .file "import numpy\nimport pandas\n".toUTF8.toList),
    ("hooks.json", .file
      "\x7b\"E\":\x7b\"type\":\"command\",\"command\":\"bash x\"\x7d\x7d".toUTF8.toList),
    ("plugin.json", .file "\x7b\"name\":\"x\",\"targets\":[\"cowork\"]\x7d".toUTF8.toList)])]
  current := []

/-- The sources of the evidence of the plugin that has something for each scanner. -/
theorem sources_furnished : (bundledAnalyzer.analyze furnishedDisk "/p").map
    (fun r => r.evidence.map (·.source)) = .ok [.declaration, .mcpServer, .codeBlock, .codeBlock,
      .frontmatter, .declaration, .script, .scriptImport, .scriptImport, .hook] := by
  decide +kernel

/-- The evidence of the plugin that has something for each scanner is of all sources, and arranged
by files and scanners. -/
theorem evidence_arranged_furnished :
    furnishedDisk.root.IsProper ∧ ∃ r, bundledAnalyzer.analyze furnishedDisk "/p" = .ok r ∧
      r.evidence.map (·.source) = [.declaration, .mcpServer, .codeBlock, .codeBlock, .frontmatter,
        .declaration, .script, .scriptImport, .scriptImport, .hook] ∧
      ∃ (p : Plugin) (m : Manifest) (paths : List Text) (surfaces : List Evidence)
        (blocks : List (List Evidence)),
        Plugin.open? furnishedDisk "/p" {} = .ok p ∧ paths.Pairwise Text.Lt ∧ m.path ∉ paths ∧
        r.evidence = surfaces ++ blocks.flatten ∧ Scanner.declaration.Finds m.path surfaces ∧
        List.Forall₂ (fun relative block => ∃ kind, p.kindOf relative = .ok kind ∧
          kind.Arranges relative block) paths blocks := by
  have hproper : furnishedDisk.root.IsProper := by decide +kernel
  obtain ⟨r, hr, hsources⟩ := Attempt.map_eq_ok_iff.mp sources_furnished
  obtain ⟨p, m, paths, surfaces, blocks, hp, -, -, hpaths, hm, hevidence, hsurfaces, hblocks⟩ :=
    evidence_arranged bundledAnalyzer furnishedDisk "/p" r hproper hr
  exact ⟨hproper, r, hr, hsources, p, m, paths, surfaces, blocks, hp, hpaths, hm, hevidence,
    hsurfaces, hblocks⟩

end SurfaceAudit
