import SurfaceAudit.Proofs.PlainPaths
import SurfaceAudit.Proofs.YamlFaults

/-!
# A search and an analysis agree on plugins

The place of the manifest, its text and the name in it are looked for twice, by a search for plugins
and by the analysis of each of them. Both look at the same places in the same order
(`Discovery.manifestBelow_path`) and take the same name from what they read there, or none
(`Discovery.readAlike_of_read`). So the analysis of a plugin that was found never misses it, and
goes by the name under which it was found (`Analyzer.AgreesOn`), provided that no link is left on
the way to where the search starts (`found_are_analyzed_alike`). Where a circle of links is met, one
may be left, and then the two may part (`winding_way_disagrees`).
-/

namespace SurfaceAudit

/-- The first file among paths that are made of names is that of the first name whose path is that
of a file. -/
theorem Disk.firstFile?_map (d : Disk) (pathOf : Text → Text) (names : List Text) :
    d.firstFile? id (names.map pathOf) = (d.firstFile? pathOf names).map (Option.map pathOf) := by
  induction names with
  | nil => rfl
  | cons name r ih =>
    rw [List.map_cons, firstFile?, firstFile?, id]
    cases d.hasFile (pathOf name) with
    | error f => rfl
    | ok isThere =>
      cases isThere with
      | true => rfl
      | false => exact ih

namespace Plugin

variable {p : Plugin} {d : Disk} {place : Text}

/-- The path of a place of the manifest is below that of the plugin. -/
theorem below_path (hnames : ∀ name ∈ p.directory, Path.IsName name)
    (hplace : place ∈ Manifest.places) : Path.below p.path place = p.pathOf place := by
  have hne : ∀ place ∈ Manifest.places, Path.names place ≠ [] ∧
      Path.ofNames (Path.names place) = place := by decide
  obtain ⟨hne, hplace⟩ := hne place hplace
  rw [path, Path.below_absolute hnames, pathOf, Path.absolute, Path.absolute]
  nth_rewrite 1 [← hplace]
  rw [Path.ofNames_concat_ofNames _ hne]

/-- A plugin is opened where its path says, if the path goes straight down to a directory with a
file below it, and the directory is there. -/
theorem exists_open?_absolute {settings : FileSettings} (ht : settings.IsTyped) {names : List Text}
    {es : List (Text × Node)} (h : d.root.at? names = some (.directory es))
    (hnames : ∀ name ∈ names, Path.IsName name)
    (hfile : d.hasFile (Path.below (Path.absolute names) place) = .ok true) :
    ∃ p, open? d (Path.absolute names) settings = .ok p ∧ p.directory = names ∧
      d.hasDirectory p.path = .ok true := by
  obtain ⟨bytes, hread⟩ := Disk.exists_read_of_hasFile hfile
  have hfault : Disk.nameFault? (Path.absolute names) = none :=
    Disk.nameFault?_of_isPrefix (Path.isPrefix_below _ place) (Disk.exists_follow_of_read hread).1
  have hself : d.plainNames (Path.absolute names) = .ok names :=
    Disk.plainNames_absolute h hnames hfault
  obtain ⟨n, hn⟩ := ht.maxFileSize
  unfold open?
  rw [hself, hn]
  exact ⟨_, rfl, rfl, Disk.hasDirectory_absolute h hnames hfile⟩

/-- A file that stops the reading of a plugin does so with no defect of manifests. -/
theorem Stops.ne_manifest {relative : Text} {f : Fault} (h : p.Stops d relative f)
    (defect : ManifestDefect) : f ≠ .manifest defect := by
  cases h with
  | name _ _ h =>
    rcases Disk.eq_of_nameFault? h with rfl | ⟨o, rfl⟩
    · simp
    · simp
  | fields _ _ _ h => exact (Yaml.isOfScalar_of_load h).ne_manifest defect
  | digits _ _ _ _ => simp

end Plugin

namespace Discovery

variable {d : Disk} {p : Plugin} {place : Text}

/-- A search looks for the manifest of a plugin where the plugin has it. -/
theorem manifestBelow_path (hnames : ∀ name ∈ p.directory, Path.IsName name) :
    manifestBelow d p.path = (p.manifestPlace? d).map (Option.map p.pathOf) := by
  have hplaces : Manifest.places.map (Path.below p.path) = Manifest.places.map p.pathOf :=
    List.map_congr_left fun place hplace => Plugin.below_path hnames hplace
  rw [manifestBelow, hplaces, Disk.firstFile?_map]
  rfl

/-- The manifest that a search finds is the one of the plugin, and it can be read. -/
theorem exists_place_of_manifestBelow (hnames : ∀ name ∈ p.directory, Path.IsName name)
    {file : Text} (h : manifestBelow d p.path = .ok (some file)) :
    ∃ place, p.manifestPlace? d = .ok (some place) ∧ file = p.pathOf place ∧
      ∃ bytes, d.read (p.pathOf place) = .ok bytes := by
  rw [manifestBelow_path hnames] at h
  obtain ⟨place?, hplace, hsome⟩ := Attempt.map_eq_ok_iff.mp h
  obtain ⟨place, rfl, rfl⟩ := Option.map_eq_some_iff.mp hsome
  obtain ⟨-, -, -, hfile, -⟩ := Disk.firstFile?_eq_some hplace
  exact ⟨place, hplace, rfl, Disk.exists_read_of_hasFile hfile⟩

/-- The outcome of reading a manifest in an analysis, and the name that a search takes from the same
file. -/
inductive ReadAlike : Attempt Manifest → Attempt (Option Text) → Prop where
  /-- The name is that of the manifest. -/
  | named (m : Manifest) : ReadAlike (.ok m) (.ok (some m.name))
  /-- There is no name, since the manifest has a defect; it is not that it is missing. -/
  | nameless {defect : ManifestDefect}
    (hthere : ∀ other, defect ≠ .noDirectory other ∧ defect ≠ .noManifest other) :
    ReadAlike (.error (.manifest defect)) (.ok none)
  /-- An integer has too many digits for both. -/
  | digits (n : Nat) :
    ReadAlike (.error (.tooManyDigits (some n))) (.error (.tooManyDigits (some n)))

/-- A manifest that is a file is read alike. -/
theorem readAlike_of_read {bytes : List UInt8} (hread : d.read (p.pathOf place) = .ok bytes) :
    ReadAlike (p.manifestAt d place) (nameIn? d (p.pathOf place)) := by
  unfold Plugin.manifestAt Plugin.manifestText nameIn?
  simp only [hread, bind, Except.bind]
  -- Both look at the bytes, the JSON, its shape and the name in the same order.
  cases Utf8.read bytes with
  | error defect => exact .nameless (by simp)
  | ok t =>
  simp only
  cases hv : Json.read t with
  | error refusal =>
    cases refusal with
    | defect defect => exact .nameless (by simp)
    | digits n => exact .digits n
  | ok v =>
  simp only
  cases he : v.entries? with
  | none => exact .nameless (by simp)
  | some es =>
    simp only [Option.bind]
    cases hname : Manifest.nameOf? es with
    | none => exact .nameless (by simp)
    | some name =>
      obtain ⟨m, hm⟩ := Manifest.exists_ofEntries (Json.isJson_of_read hv) he name place
      obtain ⟨targets, rfl⟩ := Manifest.of_ofEntries hm
      simp only [hm]
      exact .named _

/-- A plugin that a search finds is in the root of one, and is made of the manifest there. -/
theorem exists_of_mem_plugins {path : Text} {root : List Text} {n : Node}
    (hroot : d.plainNames path = .ok root) (hn : d.look (Path.absolute root) = .ok (some n))
    (hproper : d.root.IsProper) {ps : List DiscoveredPlugin} (hps : plugins d path = .ok ps)
    {found : DiscoveredPlugin} (hfound : found ∈ ps) :
    ∃ below es file, n.at? below = some (.directory es) ∧ found.path = pathFrom root below ∧
      manifestBelow d found.path = .ok (some file) ∧
      plugin d found.path file = .ok found := by
  have hnode : n.IsProper := Disk.isProper_of_find? hproper (Disk.find?_of_look hn)
  have hsearched : Searched d root _ (pluginsIn d root [] n) := searched_pluginsIn hnode []
  rw [plugins_eq hroot hn] at hps
  obtain ⟨fs, hfs, rfl⟩ := Attempt.map_eq_ok_iff.mp hps
  rw [hfs] at hsearched
  cases hsearched with
  | finds _ h =>
    obtain ⟨f, hf, rfl⟩ := List.mem_map.mp hfound
    have hf : f ∈ fs := (Rank.perm_sort _ fs).mem_iff.mp hf
    obtain ⟨file, hfile, hp⟩ := h.plugin f hf
    obtain ⟨⟨below, hbelow, hreached⟩, -⟩ := (h.mem f.1).mp (List.mem_map_of_mem hf)
    obtain ⟨es, hes⟩ := hreached.directory
    rw [hbelow] at hfile hp
    exact ⟨below, es, file, hes, path_of_plugin hp, (path_of_plugin hp).symm ▸ hfile,
      (path_of_plugin hp).symm ▸ hp⟩

end Discovery

namespace Analyzer

variable {a : Analyzer} {d : Disk} {path : Text}

/-- An analysis that gives a result has read the manifest, and names the plugin by it. -/
theorem exists_manifest_of_analyze {r : Result} (h : a.analyze d path = .ok r) :
    ∃ p m, Plugin.open? d path a.config.files = .ok p ∧ p.manifest d = .ok m ∧
      r.plugin = m.name := by
  obtain ⟨c, found, notes, hs, rfl⟩ := exists_of_analyze h
  obtain ⟨p, hp, hc, -⟩ := exists_of_survey hs
  exact ⟨p, c.manifest, hp, (Plugin.exists_of_outcome_contents hc).1, rfl⟩

/-- An analysis that fails with a defect of manifests has failed at the manifest. -/
theorem exists_manifest_of_analyze_eq_error (ht : a.config.IsTyped) {defect : ManifestDefect}
    (h : a.analyze d path = .error (.manifest defect)) :
    ∃ p, Plugin.open? d path a.config.files = .ok p ∧
      p.manifest d = .error (.manifest defect) := by
  rcases (analyze_eq_error_iff_contents ht).mp h with h | ⟨p, hp, h⟩
  · have hplain := (Plugin.open?_eq_error_iff ht.files).mp h
    exact absurd rfl (Disk.plainNames_ne_manifest hplain defect)
  · have hs : p.settings.IsTyped := Plugin.settings_of_open? hp ▸ ht.files
    rcases Plugin.of_outcome_contents_eq_error hs h with h | ⟨-, -, relative, -, -, -, h⟩
    · exact ⟨p, hp, h⟩
    · exact absurd rfl (h.ne_manifest defect)

/-- The analysis of a plugin that a search has found agrees with the search. -/
structure AgreesOn (a : Analyzer) (d : Disk) (found : DiscoveredPlugin) : Prop where
  /-- The plugin is opened where it was found, and has the manifest there that the search read. -/
  manifest : ∃ p place, Plugin.open? d found.path a.config.files = .ok p ∧ p.path = found.path ∧
    p.manifestPlace? d = .ok (some place) ∧
    Discovery.manifestBelow d found.path = .ok (some (p.pathOf place)) ∧
    p.manifest d = p.manifestAt d place
  /-- Neither the directory nor the manifest is missing. -/
  there : ∀ other, a.analyze d found.path ≠ .error (.manifest (.noDirectory other)) ∧
    a.analyze d found.path ≠ .error (.manifest (.noManifest other))
  /-- The plugin has the name in the result, if there is one. -/
  named : ∀ r, a.analyze d found.path = .ok r → r.plugin = found.name
  /-- The plugin has the name of its directory, if there is a defect of the manifest. -/
  nameless : ∀ defect, a.analyze d found.path = .error (.manifest defect) →
    found.name = Path.lastName found.path

/-- The analysis of a plugin that was found agrees with the search, if the manifest is read alike
and the plugin was found under the name that is read there. -/
theorem agreesOn_of_readAlike (ht : a.config.IsTyped) {found : DiscoveredPlugin} {p : Plugin}
    {place : Text} {name? : Option Text} (hopen : Plugin.open? d found.path a.config.files = .ok p)
    (hpath : p.path = found.path) (hplace : p.manifestPlace? d = .ok (some place))
    (hbelow : Discovery.manifestBelow d found.path = .ok (some (p.pathOf place)))
    (hmanifest : p.manifest d = p.manifestAt d place)
    (halike : Discovery.ReadAlike (p.manifest d) (.ok name?))
    (hname : found.name = name?.getD (Path.lastName found.path)) : a.AgreesOn d found := by
  -- The analysis fails with a defect of manifests only at the manifest, where it is read alike.
  have hdefect {defect : ManifestDefect}
      (h : a.analyze d found.path = .error (.manifest defect)) :
      name? = none ∧ ∀ other, defect ≠ .noDirectory other ∧ defect ≠ .noManifest other := by
    obtain ⟨q, hq, hm⟩ := exists_manifest_of_analyze_eq_error ht h
    cases hopen.symm.trans hq
    rw [hm] at halike
    cases halike with
    | nameless hthere => exact ⟨rfl, hthere⟩
  have hmissing (other : Text) :
      a.analyze d found.path ≠ .error (.manifest (.noDirectory other)) ∧
        a.analyze d found.path ≠ .error (.manifest (.noManifest other)) :=
    ⟨fun h => ((hdefect h).2 other).1 rfl, fun h => ((hdefect h).2 other).2 rfl⟩
  refine ⟨⟨p, place, hopen, hpath, hplace, hbelow, hmanifest⟩, hmissing, fun r hr => ?_,
    fun defect h => ?_⟩
  · obtain ⟨q, m, hq, hm, hr⟩ := exists_manifest_of_analyze hr
    cases hopen.symm.trans hq
    rw [hm] at halike
    cases halike with
    | named => rw [hr, hname, Option.getD_some]
  · rw [hname, (hdefect h).1, Option.getD_none]

end Analyzer

namespace Discovery

variable {d : Disk} {path : Text} {root : List Text} {ps : List DiscoveredPlugin}

/-- If a search finds anything, there is something to search. -/
theorem exists_look_of_mem_plugins (hroot : d.plainNames path = .ok root)
    (hps : plugins d path = .ok ps) {found : DiscoveredPlugin} (hfound : found ∈ ps) :
    ∃ n, d.look (Path.absolute root) = .ok (some n) := by
  obtain ⟨root', hroot', hps⟩ := Attempt.bind_eq_ok_iff.mp hps
  cases hroot.symm.trans hroot'
  obtain ⟨n?, hn, hps⟩ := Attempt.bind_eq_ok_iff.mp hps
  cases n? with
  | none =>
    cases hps
    exact absurd hfound List.not_mem_nil
  | some n => exact ⟨n, hn⟩

end Discovery

open Discovery

/-- Every plugin that a search finds is analyzed as it was found, if no link is left on the way to
where the search starts: the analysis reads the same manifest, and names the plugin alike. -/
theorem found_are_analyzed_alike {a : Analyzer} {d : Disk} {path : Text} {root : List Text}
    (ht : a.config.IsTyped) (hproper : d.root.IsProper)
    (hcurrent : ∀ name ∈ d.current, Path.IsName name) (hroot : d.plainNames path = .ok root)
    (hlink : ∀ above, above <+: root → ∀ target, d.root.at? above ≠ some (.link target))
    {ps : List DiscoveredPlugin} (hps : plugins d path = .ok ps) :
    ∀ found ∈ ps, a.AgreesOn d found := by
  intro found hfound
  have hplain : d.root.IsPlain root := ⟨Disk.isName_of_plainNames hcurrent hroot, hlink⟩
  obtain ⟨n, hn⟩ := exists_look_of_mem_plugins hroot hps hfound
  obtain ⟨below, es, file, hes, hpath, hfile, hplugin⟩ :=
    exists_of_mem_plugins hroot hn hproper hps hfound
  -- No link is left on the way to the root or below it, so that the way goes straight down.
  have hat : d.root.at? root = some n := Disk.at?_of_find?_absolute hplain (Disk.find?_of_look hn)
  have hdirectory : d.root.at? (root ++ below) = some (.directory es) := by
    rw [Node.at?_append, hat]
    exact hes
  have hnames : ∀ name ∈ root ++ below, Path.IsName name := hproper.isName hdirectory
  obtain ⟨place', -, hthere⟩ := holdsManifest_of_manifestBelow (hpath ▸ hfile)
  obtain ⟨p, hopen, hp, hisThere⟩ :=
    Plugin.exists_open?_absolute ht.files hdirectory hnames hthere
  have hppath : p.path = found.path := by
    rw [Plugin.path, hp, hpath]
    rfl
  -- Both find the same manifest, and what is read there decides about the name for both.
  rw [← hp] at hnames
  obtain ⟨place, hplace, rfl, bytes, hread⟩ :=
    exists_place_of_manifestBelow hnames (hppath.symm ▸ hfile)
  have hmanifest := Plugin.manifest_of_place hisThere hplace
  obtain ⟨name?, hname, hmade⟩ := Attempt.map_eq_ok_iff.mp hplugin
  have halike := readAlike_of_read hread
  rw [hname, ← hmanifest] at halike
  exact Analyzer.agreesOn_of_readAlike ht (hpath ▸ hopen) hppath hplace hfile hmanifest halike
    (congrArg DiscoveredPlugin.name hmade).symm

/-- The plugins of the tree are analyzed as they were found, the one without a name too. -/
theorem found_are_analyzed_alike_shop : plainAnalyzer.config.IsTyped ∧ street.root.IsProper ∧
    (∀ name ∈ street.current, Path.IsName name) ∧ street.plainNames "/m" = .ok ["m"] ∧
    (∀ above : List Text, above <+: ["m"] →
      ∀ target, street.root.at? above ≠ some (.link target)) ∧
    plugins street "/m" = .ok [⟨"/m/a", "outer"⟩, ⟨"/m/e", "e"⟩] ∧
    plainAnalyzer.AgreesOn street ⟨"/m/a", "outer"⟩ ∧
    plainAnalyzer.AgreesOn street ⟨"/m/e", "e"⟩ := by
  have hproper : street.root.IsProper := by decide +kernel
  have hroot : street.plainNames "/m" = .ok ["m"] := by decide +kernel
  have hcurrent : street.root.IsPlain street.current :=
    ⟨by simp [street], by simp [street, Node.at?]⟩
  -- No circle of links is met on the way, so that none is left.
  have hplain : street.root.IsPlain ["m"] :=
    Disk.isPlain_of_plainNames hcurrent hroot (by decide +kernel)
  have hps : plugins street "/m" = .ok [⟨"/m/a", "outer"⟩, ⟨"/m/e", "e"⟩] := by decide +kernel
  have hagrees : ∀ found ∈ _, plainAnalyzer.AgreesOn street found := found_are_analyzed_alike
    Config.isTyped_default hproper hcurrent.names hroot hplain.noLink hps
  exact ⟨Config.isTyped_default, hproper, hcurrent.names, hroot, hplain.noLink, hps,
    hagrees _ (by simp), hagrees _ (by simp)⟩

/-- The name that is made of a letter a number of times. -/
def repeated (letter : Char) (n : Nat) : Text := List.replicate n (.scalar letter)

/-- Links of which each leads to the next one, and the last one to a name, before other entries. -/
def chain (letter : Char) (length : Nat) (last : Text) (more : List (Text × Node)) :
    List (Text × Node) :=
  (List.range length).map (fun i => (repeated letter (i + 1),
    .link (if i + 1 < length then repeated letter (i + 2) else last))) ++ more

/-- A tree with a circle of links, a chain of links to a plugin, and another chain of links from the
first place of its manifest. -/
def winding : Disk where
  root := .directory (chain 'd' 30 "real" [
    ("loop", .link "loop"),
    ("real", .directory [
      (".claude-plugin", .directory (chain 'm' 28 "n" [
        ("n", .file "\x7b\"name\":\"first\"\x7d".toUTF8.toList),
        ("plugin.json", .link "m")])),
      ("plugin.json", .file "\x7b\"name\":\"second\"\x7d".toUTF8.toList)])])
  current := []

/-- A search after a circle of links finds the plugin at the end of the chain by way of its links,
which with those from the manifest are too many, and the analysis without them. -/
theorem winding_way_disagrees : plainAnalyzer.config.IsTyped ∧ winding.root.IsProper ∧
    plugins winding "/loop/../d" = .ok [⟨"/d", "second"⟩] ∧
    (plainAnalyzer.analyze winding "/d").map (·.plugin) = .ok "first" ∧
    ¬plainAnalyzer.AgreesOn winding ⟨"/d", "second"⟩ := by
  have hfirst : (plainAnalyzer.analyze winding "/d").map (·.plugin) = .ok "first" := by
    decide +kernel
  refine ⟨Config.isTyped_default, by decide +kernel, by decide +kernel, hfirst, fun h => ?_⟩
  obtain ⟨r, hr, hname⟩ := Attempt.map_eq_ok_iff.mp hfirst
  exact absurd (hname.symm.trans (h.named r hr)) (by decide)

end SurfaceAudit
