import SurfaceAudit.Proofs.Steps
import SurfaceAudit.Scan.Analysis

/-!
# How a plugin is read

A plugin is read in steps that only add notes, so what comes of it is told without the notes
(`Plugin.outcome_contents`). Most of what can be wrong with a file is noted, and the file keeps its
place. A few things are not, and they end the reading of the plugin: `Plugin.Stops` lists them, and
a file fails exactly with the faults listed (`Plugin.outcome_file_eq_error_iff`).
-/

namespace SurfaceAudit

namespace Disk

/-- A path that is no name of a file at all holds a null or a surrogate. -/
theorem eq_of_nameFault? {path : Text} {f : Fault} (h : nameFault? path = some f) :
    f = .nullInPath ∨ ∃ o, f = .unencodable o := by
  unfold nameFault? at h
  split at h
  · cases h
    exact .inr ⟨_, rfl⟩
  · split at h
    · cases h
      exact .inl rfl
    · exact absurd h (by simp)

/-- At a path that is no name of a file at all, nothing can be read. -/
theorem read_of_nameFault? (d : Disk) {path : Text} {f : Fault} (h : nameFault? path = some f) :
    d.read path = .error f := by
  unfold read
  rw [h]

/-- At any other path, there is a file or a defect of files. -/
theorem read_cases (d : Disk) {path : Text} (h : nameFault? path = none) :
    (∃ bytes, d.read path = .ok bytes) ∨ ∃ defect, d.read path = .error (.file defect path) := by
  unfold read
  rw [h]
  simp only
  split
  · exact .inl ⟨_, rfl⟩
  · exact .inr ⟨_, rfl⟩
  · exact .inr ⟨_, rfl⟩
  · exact .inr ⟨_, rfl⟩

end Disk

namespace Markdown

/-- Fields that are YAML, or are not, stop nothing; those whose values do not exist do. -/
theorem split_eq_error_iff {content : Text} {f : Fault} :
    split content = .error f ↔ ∃ block body, cut content.rows = some (block, body) ∧
      Yaml.load (unrows block) = .error (.fault f) := by
  unfold split fieldsOf
  cases hc : cut content.rows with
  | none => simp
  | some parts =>
    obtain ⟨block, body⟩ := parts
    simp only [Option.some.injEq, Prod.mk.injEq]
    rcases hy : Yaml.load (unrows block) with (_ | g) | v
    · simp [Except.map, hy]
    · simp [Except.map, hy]
    · simp [Except.map, hy]

end Markdown

namespace Plugin

/-- A file of a plugin holds a text, which is not too long to be read. -/
def Holds (p : Plugin) (d : Disk) (relative content : Text) : Prop :=
  ∃ bytes, d.read (p.pathOf relative) = .ok bytes ∧ bytes.length ≤ p.sizeLimit ∧
    Utf8.read bytes = .ok content

/-- What stops the reading of a plugin at one of its files, and with which fault: a path that is no
name of a file, fields before a document whose values do not exist, and an integer of a
configuration with too many digits. -/
inductive Stops (p : Plugin) (d : Disk) (relative : Text) : Fault → Prop where
  /-- The path is no name of a file at all. -/
  | name {kind : FileKind} {f : Fault} (hk : p.kindOf relative = .ok kind) (ho : kind ≠ .other)
    (h : Disk.nameFault? (p.pathOf relative) = some f) : Stops p d relative f
  /-- The fields before a document are YAML in form, but a value in them does not exist. -/
  | fields {content : Text} {block body : List Text} {f : Fault}
    (hk : p.kindOf relative = .ok .markdown) (hc : p.Holds d relative content)
    (hf : Markdown.cut content.rows = some (block, body))
    (h : Yaml.load (Markdown.unrows block) = .error (.fault f)) : Stops p d relative f
  /-- A configuration has an integer with too many digits. -/
  | digits {kind : FileKind} {content : Text} {n : Nat} (hk : p.kindOf relative = .ok kind)
    (hj : kind = .hooks ∨ kind = .servers) (hc : p.Holds d relative content)
    (h : Json.read content = .error (.digits n)) : Stops p d relative (.tooManyDigits (some n))

variable (p : Plugin) (d : Disk)

/-- The step that reads a file only adds notes. -/
theorem isSteady_textOf (relative : Text) : (p.textOf d relative).IsSteady := by
  unfold textOf
  split
  · exact Noting.isSteady_bind (Noting.isSteady_add _) fun _ => Noting.isSteady_pure _
  · exact Noting.isSteady_throw _
  · split
    · exact Noting.isSteady_bind (Noting.isSteady_add _) fun _ => Noting.isSteady_pure _
    · split
      · exact Noting.isSteady_bind (Noting.isSteady_add _) fun _ => Noting.isSteady_pure _
      · exact Noting.isSteady_pure _

variable {p d} in
/-- At a path that is no name of a file, reading the text is its fault. -/
theorem outcome_textOf_of_nameFault? {relative : Text} {f : Fault}
    (h : Disk.nameFault? (p.pathOf relative) = some f) :
    (p.textOf d relative).outcome = .error f := by
  unfold textOf
  rw [d.read_of_nameFault? h]
  -- The fault is none of files, so that it is passed on.
  rcases Disk.eq_of_nameFault? h with rfl | ⟨o, rfl⟩
  · rfl
  · rfl

variable {p d} in
/-- Of a file that holds a text, this text is read. -/
theorem Holds.outcome_textOf {relative content : Text} (h : p.Holds d relative content) :
    (p.textOf d relative).outcome = .ok (some content) := by
  obtain ⟨bytes, hb, hs, hu⟩ := h
  unfold textOf
  simp only [hb, if_neg (Int.not_lt.mpr hs), hu]
  rfl

/-- What comes of reading the text of a file: at a path that is no name of a file, its fault; of a
file that holds a text, this text; else nothing. -/
theorem outcome_textOf_cases (relative : Text) :
    (∃ f, Disk.nameFault? (p.pathOf relative) = some f ∧
      (p.textOf d relative).outcome = .error f) ∨
    (∃ content, p.Holds d relative content ∧
      (p.textOf d relative).outcome = .ok (some content)) ∨
    ((∀ content, ¬p.Holds d relative content) ∧ (p.textOf d relative).outcome = .ok none) := by
  cases hn : Disk.nameFault? (p.pathOf relative) with
  | some f => exact .inl ⟨f, rfl, outcome_textOf_of_nameFault? hn⟩
  | none =>
    right
    by_cases hc : ∃ content, p.Holds d relative content
    · obtain ⟨content, hc⟩ := hc
      exact .inl ⟨content, hc, hc.outcome_textOf⟩
    · refine .inr ⟨not_exists.mp hc, ?_⟩
      unfold Holds at hc
      unfold textOf
      -- A file that holds no text cannot be read, is too large or is not UTF-8, and each of these
      -- is only noted.
      rcases d.read_cases hn with ⟨bytes, hb⟩ | ⟨defect, hb⟩
      · simp only [hb, Except.ok.injEq, exists_eq_left'] at hc ⊢
        split
        · rfl
        · rename_i hs
          cases hu : Utf8.read bytes with
          | error defect => rfl
          | ok content => exact absurd ⟨content, Int.not_lt.mp hs, hu⟩ hc
      · rw [hb]
        rfl

/-- The step that makes the data of a file out of its content only adds notes. -/
theorem isSteady_dataOf (relative content : Text) : (dataOf relative content).IsSteady := by
  unfold dataOf
  split
  · exact Noting.isSteady_pure _
  · exact Noting.isSteady_bind (Noting.isSteady_add _) fun _ => Noting.isSteady_pure _
  · exact Noting.isSteady_throw _

/-- The value of a configuration fails to be had only if an integer has too many digits. -/
theorem outcome_dataOf_eq_error_iff {relative content : Text} {f : Fault} :
    (dataOf relative content).outcome = .error f ↔
      ∃ n, Json.read content = .error (.digits n) ∧ f = .tooManyDigits (some n) := by
  unfold dataOf
  rcases Json.read content with (defect | n) | v
  · refine iff_of_false (fun h => ?_) (by simp)
    cases h
  · simp only [Noting.outcome_throw, Except.error.injEq, Json.Failure.digits.injEq, exists_eq_left']
    exact eq_comm
  · refine iff_of_false (fun h => ?_) (by simp)
    cases h

/-- The step that puts the data of a file beside its content only adds notes. -/
theorem isSteady_fileWith (relative : Text) (kind : FileKind) (content : Text) :
    (fileWith relative kind content).IsSteady := by
  unfold fileWith
  split
  · exact Noting.isSteady_bind (Noting.isSteady_ofAttempt _) fun _ => Noting.isSteady_pure _
  · exact Noting.isSteady_bind (isSteady_dataOf _ _) fun _ => Noting.isSteady_pure _
  · exact Noting.isSteady_bind (isSteady_dataOf _ _) fun _ => Noting.isSteady_pure _
  · exact Noting.isSteady_pure _

/-- A file that was read has its path, its kind and its text. -/
theorem of_outcome_fileWith {relative : Text} {kind : FileKind} {content : Text} {file : PluginFile}
    (h : (fileWith relative kind content).outcome = .ok file) :
    file.path = relative ∧ file.kind = kind ∧ file.content = some content := by
  unfold fileWith at h
  split at h
  · rw [Noting.outcome_bind_pure, Attempt.map_eq_ok_iff] at h
    obtain ⟨fields, -, rfl⟩ := h
    exact ⟨rfl, rfl, rfl⟩
  · rw [Noting.outcome_bind_pure, Attempt.map_eq_ok_iff] at h
    obtain ⟨data, -, rfl⟩ := h
    exact ⟨rfl, rfl, rfl⟩
  · rw [Noting.outcome_bind_pure, Attempt.map_eq_ok_iff] at h
    obtain ⟨data, -, rfl⟩ := h
    exact ⟨rfl, rfl, rfl⟩
  · cases h
    exact ⟨rfl, rfl, rfl⟩

/-- A text fails to be taken apart only as fields before a document, or as a configuration. -/
theorem outcome_fileWith_eq_error_iff {relative content : Text} {kind : FileKind} {f : Fault} :
    (fileWith relative kind content).outcome = .error f ↔
      (kind = .markdown ∧ Markdown.split content = .error f) ∨
      ((kind = .hooks ∨ kind = .servers) ∧
        ∃ n, Json.read content = .error (.digits n) ∧ f = .tooManyDigits (some n)) := by
  cases kind with
  | markdown =>
    rw [fileWith, Noting.outcome_bind_pure, Attempt.map_eq_error_iff]
    simp
  | hooks =>
    rw [fileWith, Noting.outcome_bind_pure, Attempt.map_eq_error_iff, outcome_dataOf_eq_error_iff]
    simp
  | servers =>
    rw [fileWith, Noting.outcome_bind_pure, Attempt.map_eq_error_iff, outcome_dataOf_eq_error_iff]
    simp
  | script => simp [fileWith]
  | other => simp [fileWith]

/-- The step that loads a file only adds notes. -/
theorem isSteady_file (relative : Text) : (p.file d relative).IsSteady := by
  unfold file
  refine Noting.isSteady_bind (Noting.isSteady_ofAttempt _) fun kind => ?_
  split
  · exact Noting.isSteady_pure _
  · refine Noting.isSteady_bind (isSteady_textOf p d relative) fun t => ?_
    split
    · exact Noting.isSteady_pure _
    · exact isSteady_fileWith _ _ _

/-- What comes of reading a file: one of another kind is not looked at, and of the rest the text is.
-/
theorem outcome_file {relative : Text} {kind : FileKind} (hk : p.kindOf relative = .ok kind) :
    (p.file d relative).outcome =
      if kind = .other then .ok { path := relative, kind }
      else (p.textOf d relative).outcome >>= fun
        | none => .ok { path := relative, kind }
        | some content => (fileWith relative kind content).outcome := by
  unfold file
  rw [hk, Noting.ofAttempt_ok_bind]
  by_cases ho : kind = .other
  · rw [if_pos ho, if_pos (beq_iff_eq.mpr ho)]
    rfl
  · rw [if_neg ho, if_neg (mt beq_iff_eq.mp ho), Noting.outcome_bind]
    · congr 1
      funext t
      cases t <;> rfl
    · intro t
      cases t with
      | none => exact Noting.isSteady_pure _
      | some content => exact isSteady_fileWith _ _ _

/-- A file whose kind is known stops a plugin exactly when `Stops` says so. -/
theorem outcome_file_eq_error_iff {relative : Text} {kind : FileKind}
    (hk : p.kindOf relative = .ok kind) {f : Fault} :
    (p.file d relative).outcome = .error f ↔ p.Stops d relative f := by
  rw [outcome_file p d hk]
  constructor
  · intro h
    split at h
    · cases h
    · rename_i ho
      -- Reading the text can fail by the path alone; taking it apart fails by its header or by an
      -- integer.
      rcases outcome_textOf_cases p d relative with ⟨g, hn, ht⟩ | ⟨content, hc, ht⟩ | ⟨-, ht⟩
      · rw [ht] at h
        cases h
        exact .name hk ho hn
      · rw [ht] at h
        rcases outcome_fileWith_eq_error_iff.mp h with ⟨rfl, hs⟩ | ⟨hj, n, hn, rfl⟩
        · obtain ⟨block, body, hf, hy⟩ := Markdown.split_eq_error_iff.mp hs
          exact .fields hk hc hf hy
        · exact .digits hk hj hc hn
      · rw [ht] at h
        cases h
  · intro h
    cases h with
    | name hk' ho hn =>
      cases hk.symm.trans hk'
      rw [if_neg ho, outcome_textOf_of_nameFault? hn]
      rfl
    | fields hk' hc hf hy =>
      cases hk.symm.trans hk'
      rw [if_neg (by simp), hc.outcome_textOf]
      exact outcome_fileWith_eq_error_iff.mpr
        (.inl ⟨rfl, Markdown.split_eq_error_iff.mpr ⟨_, _, hf, hy⟩⟩)
    | digits hk' hj hc hn =>
      cases hk.symm.trans hk'
      rw [if_neg (by rintro rfl; simp at hj), hc.outcome_textOf]
      exact outcome_fileWith_eq_error_iff.mpr (.inr ⟨hj, _, hn, rfl⟩)

/-- The step that collects the files of a plugin only adds notes. -/
theorem isSteady_collect : (p.collect d).IsSteady := by
  unfold collect
  refine Noting.isSteady_bind (Noting.isSteady_ofAttempt _) fun names => ?_
  refine Noting.isSteady_bind (Noting.isSteady_ofAttempt _) fun skipped => ?_
  refine Noting.isSteady_bind (Noting.isSteady_ofAttempt _) fun manifest => ?_
  exact Noting.isSteady_bind (Noting.isSteady_add _) fun _ => Noting.isSteady_pure _

/-- What comes of listing the files of a plugin: only the names to be passed over can be at fault,
and the places of the manifest. -/
theorem outcome_collect : (p.collect d).outcome =
    p.settings.skipDirectories.elements >>= fun names =>
      names.mapM Value.asKey >>= fun skipped =>
        (p.manifestPlace? d).map (pathsIn (p.listing d skipped)) := by
  unfold collect
  cases p.settings.skipDirectories.elements with
  | error f => rfl
  | ok names =>
    rw [Noting.ofAttempt_ok_bind]
    cases hk : names.mapM Value.asKey with
    | error f => simp only [bind, Except.bind, hk]; rfl
    | ok skipped =>
      cases hm : p.manifestPlace? d with
      | error f => simp only [bind, Except.bind, hk]; rfl
      | ok manifest => simp only [bind, Except.bind, hk]; rfl

/-- What comes of reading a plugin, told without the notes. -/
theorem outcome_contents : (p.contents d).outcome =
    p.manifest d >>= fun m => (p.collect d).outcome >>= fun paths =>
      (paths.mapM fun relative => (p.file d relative).outcome).map fun files =>
        ⟨p.path, m, files⟩ := by
  have hfiles (paths : List Text) : (paths.mapM (p.file d)).IsSteady :=
    Noting.isSteady_mapM (isSteady_file p d) paths
  have hrest (m : Manifest) (paths : List Text) : (paths.mapM (p.file d) >>= fun files =>
      (pure ⟨p.path, m, files⟩ : Noting Contents)).IsSteady :=
    Noting.isSteady_bind (hfiles paths) fun _ => Noting.isSteady_pure _
  unfold contents
  rw [Noting.outcome_bind fun m => Noting.isSteady_bind (isSteady_collect p d) (hrest m)]
  congr 1
  funext m
  rw [Noting.outcome_bind (hrest m)]
  congr 1
  funext paths
  rw [Noting.outcome_bind_pure, Noting.outcome_mapM (isSteady_file p d)]

variable {p d} in
/-- A plugin that is read has a manifest that is read, and the files that are listed, each as it is
read. -/
theorem exists_of_outcome_contents {c : Contents} (h : (p.contents d).outcome = .ok c) :
    p.manifest d = .ok c.manifest ∧ ∃ paths, (p.collect d).outcome = .ok paths ∧
      List.Forall₂ (fun relative f => (p.file d relative).outcome = .ok f) paths c.files := by
  rw [outcome_contents] at h
  obtain ⟨m, hm, h⟩ := Attempt.bind_eq_ok_iff.mp h
  obtain ⟨paths, hl, h⟩ := Attempt.bind_eq_ok_iff.mp h
  obtain ⟨files, hf, rfl⟩ := Attempt.map_eq_ok_iff.mp h
  exact ⟨hm, paths, hl, Attempt.mapM_eq_ok_iff.mp hf⟩

end Plugin

namespace Analyzer

variable {a : Analyzer} {d : Disk} {path : Text}

/-- A plugin is surveyed by opening it, reading it and scanning it. -/
theorem survey_eq : a.survey d path =
    Plugin.open? d path a.config.files >>= fun p => (p.contents d).outcome >>= fun c =>
      (a.scan c (p.contents d).notes).map fun s => (c, s.1, s.2) := rfl

/-- A survey that gives something has opened a plugin, read it and scanned it. -/
theorem exists_of_survey {c : Contents} {found : List Evidence} {notes : List Note}
    (h : a.survey d path = .ok (c, found, notes)) :
    ∃ p, Plugin.open? d path a.config.files = .ok p ∧ (p.contents d).outcome = .ok c ∧
      a.scan c (p.contents d).notes = .ok (found, notes) := by
  rw [survey_eq] at h
  obtain ⟨p, hopen, h⟩ := Attempt.bind_eq_ok_iff.mp h
  obtain ⟨c', hc, h⟩ := Attempt.bind_eq_ok_iff.mp h
  obtain ⟨s, hscan, h⟩ := Attempt.map_eq_ok_iff.mp h
  cases h
  exact ⟨p, hopen, hc, hscan⟩

/-- The result of an analysis is that for the contents that were read and the evidence that was
found in them. -/
theorem exists_of_analyze {r : Result} (h : a.analyze d path = .ok r) :
    ∃ c found notes, a.survey d path = .ok (c, found, notes) ∧ r = resultOf c found notes := by
  unfold analyze at h
  obtain ⟨⟨c, found, notes⟩, hs, h⟩ := Attempt.bind_eq_ok_iff.mp h
  cases h
  exact ⟨c, found, notes, hs, rfl⟩

end Analyzer

end SurfaceAudit
