import SurfaceAudit.Proofs.Reading
import SurfaceAudit.Proofs.JsonValues

/-!
# Which manifests stop the reading of a plugin

A manifest is usable, or it has a defect of manifests, or it stops the reading of the plugin with
another fault (`Plugin.manifest_cases`). A usable manifest is read, since whatever JSON writes for
the surfaces listed in it has a text (`Plugin.HasUsableManifest.exists_manifest`).
-/

namespace SurfaceAudit

namespace Disk

/-- A path that cannot be looked at is too long. -/
theorem look_eq_error {d : Disk} {path : Text} {f : Fault} (h : d.look path = .error f) :
    f = .file .nameTooLong path := by
  unfold look at h
  split at h
  · cases h
    rfl
  · cases h

/-- A look at a path finds what there is. -/
theorem find?_of_look {d : Disk} {path : Text} {n : Option Node} (h : d.look path = .ok n) :
    d.find? path = n := by
  unfold look at h
  split at h
  · cases h
  · cases h
    rfl

/-- What keeps a path from being made plain is no defect of manifests. -/
theorem plainNames_ne_manifest {d : Disk} {path : Text} {f : Fault}
    (h : d.plainNames path = .error f) (defect : ManifestDefect) : f ≠ .manifest defect := by
  rintro rfl
  unfold plainNames at h
  split at h
  · rename_i hf
    rcases eq_of_nameFault? hf with rfl | ⟨o, rfl⟩
    · cases h
    · cases h
  · simp only at h
    split at h
    · cases h
    · split at h
      · cases h
      · cases h

/-- A file that is there can be read. -/
theorem exists_read_of_hasFile {d : Disk} {path : Text} (h : d.hasFile path = .ok true) :
    ∃ bytes, d.read path = .ok bytes := by
  obtain ⟨n, hn, h⟩ := Attempt.map_eq_ok_iff.mp h
  rw [← find?_of_look hn] at h
  unfold find? at h
  unfold read
  cases hf : nameFault? path with
  | some f => simp [hf] at h
  | none =>
    rw [hf] at h
    cases hl : d.locate path with
    | error e => simp [hl] at h
    | ok reached =>
      obtain ⟨place, node⟩ := reached
      rw [hl] at h
      -- Whoever looks for a file follows the path as reading does, so both meet the same file.
      rcases node with _ | ⟨content | target | es⟩
      · simp at h
      · exact ⟨content, rfl⟩
      · simp [Node.isFile] at h
      · simp [Node.isFile] at h

/-- What is not known to be a file or not is a path that is too long. -/
theorem firstFile?_eq_error {d : Disk} {pathOf : Text → Text} {names : List Text} {f : Fault}
    (h : d.firstFile? pathOf names = .error f) : ∃ path, f = .file .nameTooLong path := by
  induction names with
  | nil => cases h
  | cons x r ih =>
    rcases Attempt.bind_eq_error_iff.mp h with h | ⟨isThere, -, h⟩
    · exact ⟨_, look_eq_error (Attempt.map_eq_error_iff.mp h)⟩
    · cases isThere with
      | true => cases h
      | false => exact ih h

/-- The first file among names is a file, and none of the names before it is one. -/
theorem firstFile?_eq_some {d : Disk} {pathOf : Text → Text} {names : List Text} {name : Text}
    (h : d.firstFile? pathOf names = .ok (some name)) : ∃ before after,
      names = before ++ name :: after ∧ d.hasFile (pathOf name) = .ok true ∧
        ∀ x ∈ before, d.hasFile (pathOf x) = .ok false := by
  induction names with
  | nil => cases h
  | cons x r ih =>
    obtain ⟨isThere, hx, h⟩ := Attempt.bind_eq_ok_iff.mp h
    cases isThere with
    | true =>
      cases h
      exact ⟨[], r, rfl, hx, by simp⟩
    | false =>
      obtain ⟨before, after, rfl, hname, hbefore⟩ := ih h
      exact ⟨x :: before, after, rfl, hname, List.forall_mem_cons.mpr ⟨hx, hbefore⟩⟩

end Disk

namespace Manifest

/-- The manifest that entries of JSON describe exists, since the surfaces listed in it have texts.
-/
theorem exists_ofEntries {v : Value} (hv : Json.IsJson v) {es : List (Value × Value)}
    (he : v.entries? = some es) (name place : Text) : ∃ m, ofEntries name place es = .ok m := by
  unfold ofEntries
  cases hi : (Value.field es "targets").items? with
  | none => exact ⟨_, rfl⟩
  | some items =>
    obtain ⟨ts, hts⟩ := Attempt.exists_mapM_eq_ok_iff.mpr fun w hw =>
      ((hv.field he "targets").of_mem_items hi w hw).exists_shown
    simp only [hts]
    exact ⟨_, rfl⟩

/-- What the manifest is that entries describe, but for the surfaces listed in it. -/
theorem of_ofEntries {name place : Text} {es : List (Value × Value)} {m : Manifest}
    (h : ofEntries name place es = .ok m) :
    ∃ targets, m = ⟨name, (Value.field es "version").text?, targets, place, .map es⟩ := by
  unfold ofEntries at h
  dsimp only at h
  split at h
  · obtain ⟨targets, -, h⟩ := Attempt.bind_eq_ok_iff.mp h
    exact ⟨targets, (Except.ok.inj h).symm⟩
  · exact ⟨none, (Except.ok.inj h).symm⟩

end Manifest

namespace Plugin

variable (p : Plugin) (d : Disk)

/-- A manifest whose place is found spells a text. -/
def ManifestSpells (place text : Text) : Prop :=
  d.hasDirectory p.path = .ok true ∧ p.manifestPlace? d = .ok (some place) ∧
    ∃ bytes, d.read (p.pathOf place) = .ok bytes ∧ Utf8.read bytes = .ok text

/-- A manifest is found, readable, a JSON object, and has a name that is a text and not empty. -/
def HasUsableManifest : Prop :=
  ∃ place text v es name, p.ManifestSpells d place text ∧ Json.read text = .ok v ∧
    v.entries? = some es ∧ Manifest.nameOf? es = some name

/-- What stops the reading of a plugin before or at its manifest with a fault that is none of
manifests: a path that is too long, and an integer with too many digits. -/
inductive ManifestStops : Fault → Prop where
  /-- The directory cannot be looked at. -/
  | directory {f : Fault} (h : d.hasDirectory p.path = .error f) : ManifestStops f
  /-- A place of the manifest cannot be looked at. -/
  | place {f : Fault} (hd : d.hasDirectory p.path = .ok true)
    (h : p.manifestPlace? d = .error f) : ManifestStops f
  /-- The manifest has an integer with too many digits. -/
  | digits {place text : Text} {n : Nat} (hs : p.ManifestSpells d place text)
    (h : Json.read text = .error (.digits n)) : ManifestStops (.tooManyDigits (some n))

variable {p d}

/-- The manifest of a directory that is there is the one in the first place where there is one. -/
theorem manifest_of_place {place : Text} (hd : d.hasDirectory p.path = .ok true)
    (hp : p.manifestPlace? d = .ok (some place)) : p.manifest d = p.manifestAt d place := by
  unfold manifest
  rw [hd, hp]
  rfl

/-- What is made of the text of a manifest. -/
theorem ManifestSpells.manifest_eq {place text : Text} (h : p.ManifestSpells d place text) :
    p.manifest d = match Json.read text with
      | .error (.defect defect) => .error (.manifest (.json (p.pathOf place) defect))
      | .error (.digits n) => .error (.tooManyDigits (some n))
      | .ok v =>
        match v.entries? with
        | none => .error (.manifest (.notObject (p.pathOf place)))
        | some es =>
          match Manifest.nameOf? es with
          | none => .error (.manifest (.noName (p.pathOf place)))
          | some name => Manifest.ofEntries name place es := by
  obtain ⟨hd, hp, bytes, hb, hu⟩ := h
  have ht : p.manifestText d place = .ok text := by
    unfold manifestText
    simp only [hb, hu]
  rw [manifest_of_place hd hp]
  unfold manifestAt
  rw [ht]
  rfl

/-- A manifest spells the text that is read at its place. -/
theorem manifestSpells_of_manifestText {place text : Text} (hd : d.hasDirectory p.path = .ok true)
    (hp : p.manifestPlace? d = .ok (some place)) (ht : p.manifestText d place = .ok text) :
    p.ManifestSpells d place text := by
  refine ⟨hd, hp, ?_⟩
  unfold manifestText at ht
  dsimp only at ht
  split at ht
  · cases ht
  · cases ht
  · rename_i bytes hb
    refine ⟨bytes, hb, ?_⟩
    split at ht
    · cases ht
    · rename_i hu
      cases ht
      exact hu

/-- What stops the reading of a plugin at its manifest is the outcome there. -/
theorem ManifestStops.manifest_eq {f : Fault} (h : p.ManifestStops d f) :
    p.manifest d = .error f := by
  cases h with
  | directory h =>
    unfold manifest
    rw [h]
    rfl
  | place hd h =>
    unfold manifest
    rw [hd, h]
    rfl
  | digits hs h => rw [hs.manifest_eq, h]

/-- A place of the manifest that cannot be looked at is a path that is too long. -/
theorem manifestPlace?_eq_error {f : Fault} (h : p.manifestPlace? d = .error f) :
    ∃ path, f = .file .nameTooLong path :=
  Disk.firstFile?_eq_error h

/-- What stops the reading of a plugin at its manifest is a path that is too long, or an integer. -/
theorem ManifestStops.eq_or_eq {f : Fault} (h : p.ManifestStops d f) :
    (∃ path, f = .file .nameTooLong path) ∨ ∃ n, f = .tooManyDigits (some n) := by
  cases h with
  | directory h => exact .inl ⟨_, Disk.look_eq_error (Attempt.map_eq_error_iff.mp h)⟩
  | place _ h => exact .inl (manifestPlace?_eq_error h)
  | digits _ _ => exact .inr ⟨_, rfl⟩

/-- What stops the reading of a plugin at its manifest is no defect of manifests. -/
theorem ManifestStops.ne_manifest {f : Fault} (h : p.ManifestStops d f) (defect : ManifestDefect) :
    f ≠ .manifest defect := by
  rcases h.eq_or_eq with ⟨path, rfl⟩ | ⟨n, rfl⟩
  · simp
  · simp

variable (p d)

/-- A manifest can be used, or has a defect of manifests, or stops the reading of the plugin. -/
theorem manifest_cases : p.HasUsableManifest d ∨
    (∃ defect, p.manifest d = .error (.manifest defect)) ∨ ∃ f, p.ManifestStops d f := by
  -- The checks in the order of the reading; each that fails is a defect of manifests or one of what
  -- stops a plugin.
  cases hd : d.hasDirectory p.path with
  | error f => exact .inr (.inr ⟨f, .directory hd⟩)
  | ok isThere =>
    cases isThere with
    | false =>
      right; left
      unfold manifest
      rw [hd]
      exact ⟨_, rfl⟩
    | true =>
      cases hp : p.manifestPlace? d with
      | error f => exact .inr (.inr ⟨f, .place hd hp⟩)
      | ok place? =>
      cases place? with
      | none =>
        right; left
        unfold manifest
        rw [hd, hp]
        exact ⟨_, rfl⟩
      | some place =>
        obtain ⟨-, -, -, hfile, -⟩ := Disk.firstFile?_eq_some hp
        obtain ⟨bytes, hb⟩ := Disk.exists_read_of_hasFile hfile
        cases hu : Utf8.read bytes with
        | error defect =>
          right; left
          rw [manifest_of_place hd hp]
          unfold manifestAt manifestText
          simp only [hb, hu]
          exact ⟨_, rfl⟩
        | ok text =>
          have hs : p.ManifestSpells d place text := ⟨hd, hp, bytes, hb, hu⟩
          rw [hs.manifest_eq]
          cases hv : Json.read text with
          | error refusal =>
            cases refusal with
            | defect defect => exact .inr (.inl ⟨_, rfl⟩)
            | digits n => exact .inr (.inr ⟨_, .digits hs hv⟩)
          | ok v =>
            cases he : v.entries? with
            | none => exact .inr (.inl ⟨.notObject (p.pathOf place), by simp only [he]⟩)
            | some es =>
              cases hname : Manifest.nameOf? es with
              | none => exact .inr (.inl ⟨.noName (p.pathOf place), by simp only [he, hname]⟩)
              | some name => exact .inl ⟨place, text, v, es, name, hs, hv, he, hname⟩

variable {p d} in
/-- A manifest that is read is usable. -/
theorem hasUsableManifest_of_manifest {m : Manifest} (h : p.manifest d = .ok m) :
    p.HasUsableManifest d := by
  rcases p.manifest_cases d with hu | ⟨defect, hd⟩ | ⟨f, hf⟩
  · exact hu
  · rw [h] at hd
    cases hd
  · have hm := hf.manifest_eq
    rw [h] at hm
    cases hm

variable {p d} in
/-- A manifest that is read is that of the entries of an object at its path. -/
theorem exists_of_manifest {m : Manifest} (h : p.manifest d = .ok m) :
    ∃ text v es, p.ManifestSpells d m.path text ∧ Json.read text = .ok v ∧
      v.entries? = some es ∧ Manifest.nameOf? es = some m.name ∧
      Manifest.ofEntries m.name m.path es = .ok m := by
  obtain ⟨place, text, v, es, name, hs, hv, he, hname⟩ := hasUsableManifest_of_manifest h
  have hm : Manifest.ofEntries name place es = .ok m := by
    have heq := hs.manifest_eq
    rw [h, hv] at heq
    simp only [he, hname] at heq
    exact heq.symm
  have hparts : m.name = name ∧ m.path = place := by
    obtain ⟨targets, rfl⟩ := Manifest.of_ofEntries hm
    exact ⟨rfl, rfl⟩
  rw [hparts.1, hparts.2]
  exact ⟨text, v, es, hs, hv, he, hname, hm⟩

end Plugin

end SurfaceAudit
