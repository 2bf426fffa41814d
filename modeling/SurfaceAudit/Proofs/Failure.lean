import SurfaceAudit.Proofs.Pooling
import SurfaceAudit.Proofs.Reach

/-!
# How an analysis fails

An analysis is meant to fail exactly when its plugin has no usable manifest, and then with a defect
of manifests (`Analyzer.KeepsFailureRule`). Within reach it does so unless something escapes, which
`Analyzer.Escapes` lists: a path without a plain form, a fault at the manifest that is none of
manifests, and a file that stops the reading. A document with a date that does not exist is such a
file.
-/

namespace SurfaceAudit

/-- A setting is a list of texts. -/
def Value.IsTexts (v : Value) : Prop := ∃ ts : List Text, v = .list (ts.map .text)

/-- The settings for files have the kinds of values that they are meant to have. -/
structure FileSettings.IsTyped (s : FileSettings) : Prop where
  /-- The extensions of documents are texts. -/
  markdownExtensions : s.markdownExtensions.IsTexts
  /-- The extensions of scripts are texts. -/
  scriptExtensions : s.scriptExtensions.IsTexts
  /-- The names of directories that are passed over are texts. -/
  skipDirectories : s.skipDirectories.IsTexts
  /-- The greatest size of a file is an integer. -/
  maxFileSize : ∃ n, s.maxFileSize = .int n

/-- The settings that an analysis reads have the kinds of values that they are meant to have. -/
structure Config.IsTyped (c : Config) : Prop where
  /-- The settings for files do. -/
  files : c.files.IsTyped
  /-- The number of workers is an integer. -/
  workers : ∃ n, c.workers = .int n

/-- The default settings have the kinds of values that they are meant to have. -/
theorem Config.isTyped_default : Config.IsTyped {} where
  files :=
    { markdownExtensions := ⟨[".md"], rfl⟩
      scriptExtensions := ⟨[".py", ".sh", ".bash", ".mjs", ".js", ".cjs"], rfl⟩
      skipDirectories := ⟨["node_modules", ".git", "__pycache__", ".venv", "venv"], rfl⟩
      maxFileSize := ⟨1024, rfl⟩ }
  workers := ⟨1, rfl⟩

/-- A list of texts can be asked whether it holds a text. -/
theorem Value.IsTexts.exists_holdsText {v : Value} (h : v.IsTexts) (t : Text) :
    ∃ b, v.holdsText t = .ok b := by
  obtain ⟨ts, rfl⟩ := h
  exact ⟨_, rfl⟩

namespace Plugin

variable {p : Plugin} {d : Disk}

/-- A plugin can be opened exactly when its path has a plain form. -/
theorem open?_eq_error_iff {path : Text} {s : FileSettings} (h : s.IsTyped) {f : Fault} :
    open? d path s = .error f ↔ d.plainNames path = .error f := by
  obtain ⟨n, hn⟩ := h.maxFileSize
  have heq : open? d path s = (d.plainNames path).map fun names => ⟨names, s, n * 1024⟩ := by
    unfold open?
    rw [hn]
    cases d.plainNames path <;> rfl
  rw [heq, Attempt.map_eq_error_iff]

/-- An open plugin has the settings that it was opened with. -/
theorem settings_of_open? {path : Text} {s : FileSettings} (h : open? d path s = .ok p) :
    p.settings = s := by
  obtain ⟨directory, -, h⟩ := Attempt.bind_eq_ok_iff.mp h
  obtain ⟨units, -, h⟩ := Attempt.bind_eq_ok_iff.mp h
  cases h
  rfl

/-- Each file of a plugin has a kind. -/
theorem exists_kindOf (h : p.settings.IsTyped) (relative : Text) :
    ∃ kind, p.kindOf relative = .ok kind := by
  obtain ⟨isMarkdown, hmd⟩ := h.markdownExtensions.exists_holdsText (Path.extension relative).lower
  obtain ⟨isScript, hsc⟩ := h.scriptExtensions.exists_holdsText (Path.extension relative).lower
  unfold kindOf FileKind.ofPath
  simp only [hmd, hsc]
  cases isMarkdown
  · cases isScript
    · exact ⟨_, rfl⟩
    · exact ⟨_, rfl⟩
  · exact ⟨_, rfl⟩

/-- The files of a plugin with a manifest can be listed. -/
theorem exists_collect (h : p.settings.IsTyped) {m : Manifest} (hm : p.manifest d = .ok m) :
    ∃ paths, (p.collect d).outcome = .ok paths := by
  obtain ⟨ts, hs⟩ := h.skipDirectories
  have hkeys : (ts.map Value.text).mapM Value.asKey = .ok (ts.map .text) := by
    rw [Attempt.mapM_eq_ok_iff, List.forall₂_same]
    rintro v hv
    obtain ⟨t, -, rfl⟩ := List.mem_map.mp hv
    rfl
  have helements : Value.elements (.list (ts.map .text)) = .ok (ts.map .text) := rfl
  obtain ⟨place, -, -, -, -, ⟨-, hplace, -⟩, -⟩ := hasUsableManifest_of_manifest hm
  refine ⟨pathsIn (p.listing d (ts.map .text)) (some place), ?_⟩
  rw [outcome_collect, hs, helements, Attempt.bind_eq_ok_iff]
  exact ⟨_, rfl, Attempt.bind_eq_ok_iff.mpr
    ⟨_, hkeys, Attempt.map_eq_ok_iff.mpr ⟨_, hplace, rfl⟩⟩⟩

/-- The reading of a plugin ends at the manifest, or at a file that stops it. -/
theorem of_outcome_contents_eq_error (ht : p.settings.IsTyped) {f : Fault}
    (h : (p.contents d).outcome = .error f) : p.manifest d = .error f ∨
      ∃ m paths relative, p.manifest d = .ok m ∧ (p.collect d).outcome = .ok paths ∧
        relative ∈ paths ∧ p.Stops d relative f := by
  rw [outcome_contents, Attempt.bind_eq_error_iff] at h
  rcases h with h | ⟨m, hm, h⟩
  · exact .inl h
  · obtain ⟨paths, hl⟩ := exists_collect ht hm
    rw [hl] at h
    have h := Attempt.map_eq_error_iff.mp h
    obtain ⟨relative, hr, h⟩ := Attempt.exists_of_mapM_eq_error h
    obtain ⟨kind, hk⟩ := exists_kindOf ht relative
    exact .inr ⟨m, paths, relative, hm, hl, hr, (outcome_file_eq_error_iff p d hk).mp h⟩

end Plugin

namespace Analyzer

variable (a : Analyzer) (d : Disk) (path : Text)

/-- What may escape from the analysis of the plugin at a path. -/
inductive Escapes : Fault → Prop where
  /-- The path has no plain form. -/
  | path {f : Fault} (h : d.plainNames path = .error f) : Escapes f
  /-- Something other than a defect of manifests is wrong with the manifest. -/
  | manifest {p : Plugin} {f : Fault} (hp : Plugin.open? d path a.config.files = .ok p)
    (h : p.ManifestStops d f) : Escapes f
  /-- One of the files stops the reading of the plugin. -/
  | file {p : Plugin} {paths : List Text} {relative : Text} {f : Fault}
    (hp : Plugin.open? d path a.config.files = .ok p) (hm : p.HasUsableManifest d)
    (hl : (p.collect d).outcome = .ok paths) (hr : relative ∈ paths)
    (h : p.Stops d relative f) : Escapes f

variable {a d path}

/-- The scanners fail at nothing. -/
theorem exists_scan (h : ∃ n, a.config.workers = .int n) (c : Contents) (notes : List Note) :
    ∃ s, a.scan c notes = .ok s := by
  obtain ⟨n, hn⟩ := h
  exact ⟨_, a.scan_eq c notes (by rw [hn]; rfl)⟩

/-- An analysis fails exactly when its survey does. -/
theorem analyze_eq_error_iff {f : Fault} :
    a.analyze d path = .error f ↔ a.survey d path = .error f := by
  unfold analyze
  rw [Attempt.bind_eq_error_iff]
  constructor
  · rintro (h | ⟨s, -, h⟩)
    · exact h
    · cases h
  · exact .inl

/-- An analysis fails exactly when the plugin cannot be opened or cannot be read. -/
theorem analyze_eq_error_iff_contents (h : a.config.IsTyped) {f : Fault} :
    a.analyze d path = .error f ↔ Plugin.open? d path a.config.files = .error f ∨
      ∃ p, Plugin.open? d path a.config.files = .ok p ∧ (p.contents d).outcome = .error f := by
  rw [analyze_eq_error_iff, survey_eq, Attempt.bind_eq_error_iff]
  refine or_congr_right (exists_congr fun p => and_congr_right fun _ => ?_)
  rw [Attempt.bind_eq_error_iff]
  constructor
  · rintro (h' | ⟨c, -, h'⟩)
    · exact h'
    · obtain ⟨s, hs⟩ := exists_scan h.workers c (p.contents d).notes
      rw [hs] at h'
      cases h'
  · exact .inl

end Analyzer

/-- An analyzer with the default settings and no rules. -/
def plainAnalyzer : Analyzer := ⟨{}, .empty, .inTurn⟩

end SurfaceAudit
