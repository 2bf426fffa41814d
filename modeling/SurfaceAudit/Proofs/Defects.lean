import SurfaceAudit.Proofs.Failure

/-!
# Defects of content and the notes on them

Reading a file goes one of few ways, each with its notes (`Plugin.Reads`). All notes that a file
gives rise to are on that file (`Plugin.isOn_of_mem_notesOn`) and name it
(`Note.IsOn.isInfix_message`). A file with a defect of its content is noted, unless the defect is
one of the two that are passed over (`Plugin.PassedOver`): fields before a document that are not
YAML, and a configuration that is JSON's null. These leave no note at all (`defects_noted_iff`).
-/

namespace SurfaceAudit

/-- The scanners that look into the files of a plugin, by the names in the labels of their tasks. -/
def ScanTask.fileScanners : List Text :=
  ["code_block", "frontmatter", "script", "script_import", "hook", "mcp"]

namespace Note

/-- The note is on a file of a plugin, not on a directory, a link or the manifest. -/
inductive IsOn (relative : Text) : Note → Prop where
  /-- The file is too large. -/
  | size (bytes : Nat) : IsOn relative (.size bytes relative)
  /-- The file cannot be read. -/
  | unreadable (defect : ReadDefect) : IsOn relative (.unreadable relative defect)
  /-- The configuration is not JSON. -/
  | notJson (defect : Json.Defect) : IsOn relative (.notJson relative defect)
  /-- The hook configuration is no object. -/
  | hooksShape : IsOn relative (.hooksShape relative)
  /-- The server configuration is no object. -/
  | serversShape : IsOn relative (.serversShape relative)
  /-- A scanner failed on the file. -/
  | scanner {name : Text} (h : name ∈ ScanTask.fileScanners) (fault : Fault) :
    IsOn relative (.scanner (name ++ ":" ++ relative) fault)

/-- A note on a file names it. -/
theorem IsOn.isInfix_message {relative : Text} {n : Note} (h : n.IsOn relative) :
    relative <:+: n.message := by
  cases h with
  | size bytes => exact ⟨_, [], by rw [List.append_nil]; rfl⟩
  | unreadable defect => exact ⟨_, _, by simp only [message, List.append_assoc]; rfl⟩
  | notJson defect => exact ⟨_, _, by simp only [message, List.append_assoc]; rfl⟩
  | hooksShape => exact ⟨_, _, rfl⟩
  | serversShape => exact ⟨_, _, rfl⟩
  | @scanner name h fault =>
    refine ⟨("Scanner " : Text) ++ name ++ ":", (" failed: " : Text) ++ fault.message, ?_⟩
    simp only [message, List.append_assoc]

/-- A text without a colon, as the names of scanners are. -/
def HasNoColon (name : Text) : Prop := ∀ p ∈ name, (p != Point.scalar ':') = true

instance (name : Text) : Decidable (HasNoColon name) := List.decidableBAll _ _

/-- The names of scanners have no colons. -/
theorem hasNoColon_of_mem {name : Text} (h : name ∈ ScanTask.fileScanners) : HasNoColon name := by
  have hall : ∀ name ∈ ScanTask.fileScanners, HasNoColon name := by decide +kernel
  exact hall name h

/-- The label of a task tells the scanner, which stands before the first colon, and the file. -/
theorem label_inj {name name' relative relative' : Text} (h : HasNoColon name)
    (h' : HasNoColon name')
    (heq : name ++ (":" : Text) ++ relative = name' ++ (":" : Text) ++ relative') :
    name = name' ∧ relative = relative' := by
  have hname (name relative : Text) (h : HasNoColon name) :
      (name ++ (":" : Text) ++ relative).takeWhile (· != Point.scalar ':') = name := by
    rw [List.append_assoc, List.takeWhile_append_of_pos h]
    exact List.append_nil name
  have hnames := congrArg (List.takeWhile (· != Point.scalar ':')) heq
  rw [hname name relative h, hname name' relative' h'] at hnames
  subst hnames
  rw [List.append_assoc, List.append_assoc] at heq
  exact ⟨rfl, List.append_cancel_left (List.append_cancel_left heq)⟩

/-- A note is on one file only. -/
theorem IsOn.unique {relative relative' : Text} {n : Note} (h : n.IsOn relative)
    (h' : n.IsOn relative') : relative = relative' := by
  cases h with
  | size _ => cases h'; rfl
  | unreadable _ => cases h'; rfl
  | notJson _ => cases h'; rfl
  | hooksShape => cases h'; rfl
  | serversShape => cases h'; rfl
  | @scanner name hname fault =>
    generalize hlabel : name ++ (":" : Text) ++ relative = label at h'
    cases h' with
    | scanner hname' _ =>
      exact (label_inj (hasNoColon_of_mem hname) (hasNoColon_of_mem hname') hlabel).2

end Note

namespace Plugin

variable {p : Plugin} {d : Disk} {relative : Text}

/-- What comes of reading a file, and the notes that are taken. -/
inductive Reads (p : Plugin) (d : Disk) (relative : Text) : PluginFile → List Note → Prop where
  /-- A file of another kind is not looked at. -/
  | other (hk : p.kindOf relative = .ok .other) :
    Reads p d relative { path := relative, kind := .other } []
  /-- The file cannot be read. -/
  | unreadable {kind : FileKind} {defect : FileDefect} {path : Text}
    (hk : p.kindOf relative = .ok kind)
    (h : d.read (p.pathOf relative) = .error (.file defect path)) :
    Reads p d relative { path := relative, kind } [.unreadable relative (.file defect path)]
  /-- The file is too large. -/
  | size {kind : FileKind} {bytes : List UInt8} (hk : p.kindOf relative = .ok kind)
    (hb : d.read (p.pathOf relative) = .ok bytes) (h : p.sizeLimit < bytes.length) :
    Reads p d relative { path := relative, kind } [.size bytes.length relative]
  /-- The file is no text. -/
  | bytes {kind : FileKind} {bytes : List UInt8} {defect : Utf8.Defect}
    (hk : p.kindOf relative = .ok kind) (hb : d.read (p.pathOf relative) = .ok bytes)
    (h : Utf8.read bytes = .error defect) :
    Reads p d relative { path := relative, kind } [.unreadable relative (.bytes defect)]
  /-- A document is taken apart. -/
  | document {content body : Text} {fields : Value} (hk : p.kindOf relative = .ok .markdown)
    (hc : p.Holds d relative content) (h : Markdown.split content = .ok (fields, body)) :
    Reads p d relative { path := relative, kind := .markdown, content := some content, fields } []
  /-- A script is kept as it is. -/
  | script {content : Text} (hk : p.kindOf relative = .ok .script)
    (hc : p.Holds d relative content) :
    Reads p d relative { path := relative, kind := .script, content := some content } []
  /-- A configuration is JSON. -/
  | data {kind : FileKind} {content : Text} {data : Value} (hk : p.kindOf relative = .ok kind)
    (hj : kind = .hooks ∨ kind = .servers) (hc : p.Holds d relative content)
    (h : Json.read content = .ok data) :
    Reads p d relative { path := relative, kind, content := some content, data } []
  /-- A configuration is not JSON. -/
  | notJson {kind : FileKind} {content : Text} {defect : Json.Defect}
    (hk : p.kindOf relative = .ok kind) (hj : kind = .hooks ∨ kind = .servers)
    (hc : p.Holds d relative content) (h : Json.read content = .error (.defect defect)) :
    Reads p d relative { path := relative, kind, content := some content }
      [.notJson relative defect]

/-- The text of a file of a kind that is looked at is read, and taken apart if there is one. -/
theorem file_eq {kind : FileKind} (hk : p.kindOf relative = .ok kind) (ho : kind ≠ .other) :
    p.file d relative = p.textOf d relative >>= fun
      | none => pure { path := relative, kind }
      | some content => fileWith relative kind content := by
  unfold file
  rw [hk, Noting.ofAttempt_ok_bind]
  exact if_neg (mt beq_iff_eq.mp ho)

/-- The text of a file is read, or it is noted why not. -/
theorem textOf_cases {t : Option Text} (h : (p.textOf d relative).outcome = .ok t) :
    (∃ content, p.Holds d relative content ∧ p.textOf d relative = pure (some content)) ∨
      ∃ n, p.textOf d relative = (Noting.add [n] >>= fun _ => pure none) ∧
        ((∃ defect path, n = .unreadable relative (.file defect path) ∧
            d.read (p.pathOf relative) = .error (.file defect path)) ∨
          (∃ bytes, n = .size bytes.length relative ∧
            d.read (p.pathOf relative) = .ok bytes ∧ p.sizeLimit < bytes.length) ∨
          ∃ bytes defect, n = .unreadable relative (.bytes defect) ∧
            d.read (p.pathOf relative) = .ok bytes ∧ Utf8.read bytes = .error defect) := by
  unfold textOf at h ⊢
  -- The checks stand in this order: the file is read, then measured, then decoded.
  split
  · rename_i defect path hr
    exact .inr ⟨_, rfl, .inl ⟨defect, path, rfl, hr⟩⟩
  · rename_i f hf hr
    simp only [hr] at h
    cases h
  · rename_i bytes hr
    split
    · rename_i hs
      exact .inr ⟨_, rfl, .inr (.inl ⟨bytes, rfl, hr, hs⟩)⟩
    · rename_i hs
      split
      · rename_i defect hu
        exact .inr ⟨_, rfl, .inr (.inr ⟨bytes, defect, rfl, hr, hu⟩)⟩
      · rename_i content hu
        exact .inl ⟨content, ⟨bytes, hr, Int.not_lt.mp hs, hu⟩, rfl⟩

/-- A text that is taken apart gives a file in one of the ways for files with a text. -/
theorem reads_of_outcome_fileWith {kind : FileKind} {content : Text} {f : PluginFile}
    (hk : p.kindOf relative = .ok kind) (ho : kind ≠ .other) (hc : p.Holds d relative content)
    (h : (fileWith relative kind content).outcome = .ok f) :
    p.Reads d relative f (fileWith relative kind content).notes := by
  -- The two kinds with JSON are read alike; a text that is not JSON is noted and leaves no data.
  have hdata (hj : kind = .hooks ∨ kind = .servers)
      (h : ((dataOf relative content).outcome.map fun data =>
        ({ path := relative, kind, content := some content, data } : PluginFile)) = .ok f) :
      p.Reads d relative f (dataOf relative content).notes := by
    obtain ⟨data, hdata, rfl⟩ := Attempt.map_eq_ok_iff.mp h
    unfold dataOf at hdata ⊢
    rcases hread : Json.read content with (defect | n) | v
    · simp only [hread] at hdata ⊢
      cases hdata
      exact .notJson hk hj hc hread
    · simp only [hread] at hdata
      cases hdata
    · simp only [hread] at hdata ⊢
      cases hdata
      exact .data hk hj hc hread
  cases kind with
  | markdown =>
    rw [fileWith, Noting.outcome_bind_pure] at h
    obtain ⟨⟨fields, body⟩, hs, rfl⟩ := Attempt.map_eq_ok_iff.mp h
    rw [fileWith, Noting.notes_bind_pure, Noting.notes_ofAttempt]
    exact .document hk hc hs
  | script =>
    cases h
    exact .script hk hc
  | hooks =>
    rw [fileWith, Noting.outcome_bind_pure] at h
    rw [fileWith, Noting.notes_bind_pure]
    exact hdata (.inl rfl) h
  | servers =>
    rw [fileWith, Noting.outcome_bind_pure] at h
    rw [fileWith, Noting.notes_bind_pure]
    exact hdata (.inr rfl) h
  | other => exact absurd rfl ho

/-- A file that is read is read in one of the ways that there are. -/
theorem reads_of_outcome {f : PluginFile} (h : (p.file d relative).outcome = .ok f) :
    p.Reads d relative f (p.file d relative).notes := by
  cases hk : p.kindOf relative with
  | error e =>
    have herror : (p.file d relative).outcome = .error e := by
      unfold file
      rw [hk]
      rfl
    rw [herror] at h
    cases h
  | ok kind =>
    by_cases ho : kind = .other
    · subst ho
      have hfile : p.file d relative = pure { path := relative, kind := .other } := by
        unfold file
        rw [hk]
        rfl
      rw [hfile] at h ⊢
      cases h
      exact .other hk
    -- A file with a kind and a text is read on; a text that cannot be had leaves one note, and the
    -- way follows from which.
    have htext : ∃ t, (p.textOf d relative).outcome = .ok t := by
      rw [outcome_file p d hk, if_neg ho] at h
      obtain ⟨t, ht, -⟩ := Attempt.bind_eq_ok_iff.mp h
      exact ⟨t, ht⟩
    obtain ⟨t, ht⟩ := htext
    rw [file_eq hk ho] at h ⊢
    rcases textOf_cases ht with ⟨content, hc, htext⟩ | ⟨n, htext, hn⟩
    · rw [htext] at h ⊢
      exact reads_of_outcome_fileWith hk ho hc h
    · rw [htext] at h ⊢
      cases h
      rcases hn with ⟨defect, path, rfl, hr⟩ | ⟨bytes, rfl, hr, hs⟩ | ⟨bytes, defect, rfl, hr, hu⟩
      · exact .unreadable hk hr
      · exact .size hk hr hs
      · exact .bytes hk hr hu

/-- A file that is looked at has a defect of its content. -/
inductive Defective (p : Plugin) (d : Disk) (relative : Text) : Prop where
  /-- It is too large. -/
  | size {kind : FileKind} {bytes : List UInt8} (hk : p.kindOf relative = .ok kind)
    (ho : kind ≠ .other) (hb : d.read (p.pathOf relative) = .ok bytes)
    (h : p.sizeLimit < bytes.length)
  /-- It is no text. -/
  | bytes {kind : FileKind} {bytes : List UInt8} {defect : Utf8.Defect}
    (hk : p.kindOf relative = .ok kind) (ho : kind ≠ .other)
    (hb : d.read (p.pathOf relative) = .ok bytes) (h : Utf8.read bytes = .error defect)
  /-- It is a configuration and not JSON. -/
  | notJson {kind : FileKind} {content : Text} {defect : Json.Defect}
    (hk : p.kindOf relative = .ok kind) (hj : kind = .hooks ∨ kind = .servers)
    (hc : p.Holds d relative content) (h : Json.read content = .error (.defect defect))
  /-- It is a configuration and no object. -/
  | shape {kind : FileKind} {content : Text} {data : Value} (hk : p.kindOf relative = .ok kind)
    (hj : kind = .hooks ∨ kind = .servers) (hc : p.Holds d relative content)
    (h : Json.read content = .ok data) (he : data.entries? = none)
  /-- It is a document, and the closed block before it is not YAML. -/
  | fields {content : Text} {block body : List Text} (hk : p.kindOf relative = .ok .markdown)
    (hc : p.Holds d relative content) (hf : Markdown.cut content.rows = some (block, body))
    (h : Yaml.load (Markdown.unrows block) = .error .malformed)

/-- The defects of content that no note is on. -/
inductive PassedOver (p : Plugin) (d : Disk) (relative : Text) : Prop where
  /-- The closed block before a document is not YAML. -/
  | fields {content : Text} {block body : List Text} (hk : p.kindOf relative = .ok .markdown)
    (hc : p.Holds d relative content) (hf : Markdown.cut content.rows = some (block, body))
    (h : Yaml.load (Markdown.unrows block) = .error .malformed)
  /-- A configuration is JSON's null. -/
  | null {kind : FileKind} {content : Text} (hk : p.kindOf relative = .ok kind)
    (hj : kind = .hooks ∨ kind = .servers) (hc : p.Holds d relative content)
    (h : Json.read content = .ok .null)

/-- A file holds one text. -/
theorem Holds.unique {content content' : Text} (h : p.Holds d relative content)
    (h' : p.Holds d relative content') : content = content' := by
  obtain ⟨bytes, hb, -, hu⟩ := h
  obtain ⟨bytes', hb', -, hu'⟩ := h'
  cases hb.symm.trans hb'
  exact Except.ok.inj (hu.symm.trans hu')

/-- A file from which a text is read holds it. -/
theorem holds_of_outcome_textOf {content : Text}
    (h : (p.textOf d relative).outcome = .ok (some content)) : p.Holds d relative content := by
  rcases outcome_textOf_cases p d relative with ⟨f, -, ht⟩ | ⟨content', hc, ht⟩ | ⟨-, ht⟩
  · cases h.symm.trans ht
  · cases h.symm.trans ht
    exact hc
  · cases h.symm.trans ht

/-- What can be wrong with a file that holds a text. -/
theorem Defective.of_holds {content : Text} (h : p.Defective d relative)
    (hc : p.Holds d relative content) :
    p.PassedOver d relative ∨ ∃ kind, p.kindOf relative = .ok kind ∧
      (kind = .hooks ∨ kind = .servers) ∧
      ((∃ defect, Json.read content = .error (.defect defect)) ∨
        ∃ data, Json.read content = .ok data ∧ data.isNull = false ∧ data.entries? = none) := by
  -- A file that holds a text is read, small enough and UTF-8, which rules the first ways out.
  have ⟨read, hb, hs, hu⟩ := hc
  cases h with
  | size _ _ hb' h =>
    cases hb.symm.trans hb'
    exact absurd h (Int.not_lt.mpr hs)
  | bytes _ _ hb' h =>
    cases hb.symm.trans hb'
    cases hu.symm.trans h
  | notJson hk hj hc' h =>
    cases hc.unique hc'
    exact .inr ⟨_, hk, hj, .inl ⟨_, h⟩⟩
  | @shape _ _ data hk hj hc' h he =>
    cases hc.unique hc'
    cases data with
    | null => exact .inl (.null hk hj hc h)
    | _ => exact .inr ⟨_, hk, hj, .inr ⟨_, h, rfl, he⟩⟩
  | fields hk hc' hf h => exact .inl (.fields hk hc' hf h)

/-- A file that holds a text and is no configuration has no defects but those passed over. -/
theorem Defective.isPassedOver {kind : FileKind} {content : Text} (h : p.Defective d relative)
    (hc : p.Holds d relative content) (hk : p.kindOf relative = .ok kind)
    (hj : ¬(kind = .hooks ∨ kind = .servers)) : p.PassedOver d relative := by
  rcases h.of_holds hc with h | ⟨kind', hk', hj', -⟩
  · exact h
  · cases hk.symm.trans hk'
    exact absurd hj' hj

/-- All notes that a file gives rise to: when it is read, when its tasks are set up, and when they
run. -/
def notesOn (p : Plugin) (d : Disk) (s : ScannerSettings) (rules : RuleTables) (relative : Text)
    (f : PluginFile) : List Note :=
  (p.file d relative).notes ++ (ScanTask.ofFile s rules f).2 ++
    (ScanTask.ofFile s rules f).1.flatMap (·.run.2)

end Plugin

namespace ScanTask

/-- The notes of a scanner on a file are on that file. -/
theorem isOn_of_mem_ifOn {setting : Value} {name path : Text} (h : name ∈ fileScanners)
    {evidence : Attempt (List Evidence)} {n : Note}
    (hn : n ∈ (ifOn setting name path evidence).flatMap (·.run.2)) : n.IsOn path := by
  unfold ifOn at hn
  split at hn
  · rw [List.flatMap_singleton] at hn
    unfold run at hn
    split at hn
    · exact absurd hn List.not_mem_nil
    · rw [List.mem_singleton.mp hn]
      exact .scanner h _
  · exact absurd hn List.not_mem_nil

/-- A scanner that does not fail takes no notes. -/
theorem notes_ifOn_ok (setting : Value) (name path : Text) (es : List Evidence) :
    (ifOn setting name path (.ok es)).flatMap (·.run.2) = [] := by
  unfold ifOn
  split
  · rfl
  · rfl

/-- The notes on the tasks for a configuration are those of its tasks, or the one on its shape. -/
theorem mem_ofData {data : Value} {note n : Note} {tasks : List ScanTask}
    (h : n ∈ (ofData data note tasks).2 ++ (ofData data note tasks).1.flatMap (·.run.2)) :
    n = note ∨ n ∈ tasks.flatMap (·.run.2) := by
  unfold ofData at h
  split at h
  · exact absurd h List.not_mem_nil
  · split at h
    · exact .inr h
    · exact .inl (by simpa using h)

/-- The notes on the tasks for a file are on that file. -/
theorem isOn_of_mem_ofFile {s : ScannerSettings} {rules : RuleTables} {f : PluginFile} {n : Note}
    (h : n ∈ (ofFile s rules f).2 ++ (ofFile s rules f).1.flatMap (·.run.2)) : n.IsOn f.path := by
  unfold ofFile at h
  -- Each kind of file has its own scanners, and each of them notes on the file it is run on.
  split at h
  · split at h
    · rw [List.nil_append, ofDocument, List.flatMap_append, List.mem_append] at h
      rcases h with h | h
      · exact isOn_of_mem_ifOn (by simp [fileScanners]) h
      · exact isOn_of_mem_ifOn (by simp [fileScanners]) h
    · exact absurd h List.not_mem_nil
  · rw [List.nil_append, ofScript, List.flatMap_append, List.mem_append] at h
    rcases h with h | h
    · exact isOn_of_mem_ifOn (by simp [fileScanners]) h
    · split at h
      · exact isOn_of_mem_ifOn (by simp [fileScanners]) h
      · exact absurd h List.not_mem_nil
  · rcases mem_ofData h with rfl | h
    · exact .hooksShape
    · exact isOn_of_mem_ifOn (by simp [fileScanners]) h
  · rcases mem_ofData h with rfl | h
    · exact .serversShape
    · exact isOn_of_mem_ifOn (by simp [fileScanners]) h
  · exact absurd h List.not_mem_nil

end ScanTask

namespace Plugin

variable {p : Plugin} {d : Disk} {relative : Text} {s : ScannerSettings} {rules : RuleTables}
  {f : PluginFile}

/-- A file that was read has the path that it was read from. -/
theorem Reads.path_eq {ns : List Note} (h : p.Reads d relative f ns) : f.path = relative := by
  cases h <;> rfl

/-- The notes that are taken when a file is read are on that file. -/
theorem Reads.isOn {ns : List Note} (h : p.Reads d relative f ns) {n : Note} (hn : n ∈ ns) :
    n.IsOn relative := by
  cases h with
  | unreadable _ _ => rw [List.mem_singleton.mp hn]; exact .unreadable _
  | size _ _ _ => rw [List.mem_singleton.mp hn]; exact .size _
  | bytes _ _ _ => rw [List.mem_singleton.mp hn]; exact .unreadable _
  | notJson _ _ _ _ => rw [List.mem_singleton.mp hn]; exact .notJson _
  | other _ => exact absurd hn List.not_mem_nil
  | document _ _ _ => exact absurd hn List.not_mem_nil
  | script _ _ => exact absurd hn List.not_mem_nil
  | data _ _ _ _ => exact absurd hn List.not_mem_nil

/-- All notes that a file gives rise to are on that file. -/
theorem isOn_of_mem_notesOn (hf : (p.file d relative).outcome = .ok f) {n : Note}
    (hn : n ∈ p.notesOn d s rules relative f) : n.IsOn relative := by
  have hreads := reads_of_outcome hf
  unfold notesOn at hn
  rw [List.append_assoc, List.mem_append] at hn
  rcases hn with hn | hn
  · exact hreads.isOn hn
  · rw [← hreads.path_eq]
    exact ScanTask.isOn_of_mem_ofFile hn

/-- A file with a defect that is not passed over gives rise to a note. -/
theorem exists_mem_notesOn (hf : (p.file d relative).outcome = .ok f)
    (hd : p.Defective d relative) (hp : ¬p.PassedOver d relative) :
    ∃ n, n ∈ p.notesOn d s rules relative f := by
  have hreads := reads_of_outcome hf
  have hread {n : Note} (hn : n ∈ (p.file d relative).notes) :
      ∃ n, n ∈ p.notesOn d s rules relative f :=
    ⟨n, List.mem_append_left _ (List.mem_append_left _ hn)⟩
  generalize hns : (p.file d relative).notes = ns at hreads hread
  cases hreads with
  | unreadable _ _ => exact hread List.mem_cons_self
  | size _ _ _ => exact hread List.mem_cons_self
  | bytes _ _ _ => exact hread List.mem_cons_self
  | notJson _ _ _ _ => exact hread List.mem_cons_self
  | other hk =>
    -- A file that is not looked at has no defect.
    exfalso
    cases hd with
    | size hk' ho => exact ho (Except.ok.inj (hk'.symm.trans hk))
    | bytes hk' ho => exact ho (Except.ok.inj (hk'.symm.trans hk))
    | notJson hk' hj => cases hk.symm.trans hk'; simp at hj
    | shape hk' hj => cases hk.symm.trans hk'; simp at hj
    | fields hk' => cases hk.symm.trans hk'
  | document hk hc _ => exact absurd (hd.isPassedOver hc hk (by simp)) hp
  | script hk hc => exact absurd (hd.isPassedOver hc hk (by simp)) hp
  | @data kind content data hk hj hc h =>
    rcases hd.of_holds hc with h' | ⟨_, -, -, ⟨defect, h'⟩ | ⟨v, h', hnull, he⟩⟩
    · exact absurd h' hp
    · cases h.symm.trans h'
    · -- The value is there, but it is no object, which is noted with the tasks.
      cases h.symm.trans h'
      unfold notesOn ScanTask.ofFile
      rcases hj with rfl | rfl
      · exact ⟨.hooksShape relative, by simp [ScanTask.ofData, hnull, he]⟩
      · exact ⟨.serversShape relative, by simp [ScanTask.ofData, hnull, he]⟩

/-- Of a file that holds a text, this text is taken apart, and nothing is noted before. -/
theorem Holds.file_eq {kind : FileKind} {content : Text} (hc : p.Holds d relative content)
    (hk : p.kindOf relative = .ok kind) (ho : kind ≠ .other) :
    p.file d relative = fileWith relative kind content := by
  obtain ⟨bytes, hb, hs, hu⟩ := hc
  have htext : p.textOf d relative = pure (some content) := by
    unfold textOf
    simp only [hb, if_neg (Int.not_lt.mpr hs), hu]
  rw [Plugin.file_eq hk ho, htext]
  rfl

/-- A file with a defect that is passed over gives rise to no note. -/
theorem notesOn_eq_nil (hf : (p.file d relative).outcome = .ok f) (h : p.PassedOver d relative) :
    p.notesOn d s rules relative f = [] := by
  cases h with
  | @fields content block body hk hc hcut hy =>
    have hsplit : Markdown.split content = .ok (.map [], Markdown.unrows body) := by
      unfold Markdown.split Markdown.fieldsOf
      simp only [hcut, hy]
      rfl
    have hfile : p.file d relative =
        pure { path := relative, kind := .markdown, content := some content } := by
      rw [hc.file_eq hk (by simp), fileWith, hsplit]
      rfl
    have hfields : Declaration.fieldsEvidence rules relative (.map []) = .ok [] := rfl
    rw [hfile] at hf
    cases hf
    -- The fields are empty, so that no scanner of the document fails on them.
    unfold notesOn ScanTask.ofFile
    rw [hfile]
    simp only [ScanTask.ofDocument, List.flatMap_append, ScanTask.notes_ifOn_ok, hfields]
    rfl
  | @null kind content hk hj hc hread =>
    have hfile : p.file d relative =
        pure { path := relative, kind, content := some content } := by
      have hdata : dataOf relative content = pure .null := by
        unfold dataOf
        simp only [hread]
      rw [hc.file_eq hk (by rintro rfl; simp at hj)]
      rcases hj with rfl | rfl
      · rw [fileWith, hdata]
        rfl
      · rw [fileWith, hdata]
        rfl
    rw [hfile] at hf
    cases hf
    unfold notesOn ScanTask.ofFile
    rw [hfile]
    rcases hj with rfl | rfl
    · rfl
    · rfl

end Plugin

namespace Listing

/-- The note is on a directory or a link. -/
def IsPassing (n : Note) : Prop := (∃ path, n = .directory path) ∨ ∃ path, n = .link path

/-- The notes on the entries of a directory are on directories and links. -/
theorem isPassing_of_mem_leaves {g : Guide} {here : List Text} {es : List (Text × Node)} {n : Note}
    (h : n ∈ (leaves g here es).notes) : IsPassing n := by
  have hleaf (e : Text × Node) (h : n ∈ (leaf g here e).notes) : IsPassing n := by
    unfold leaf at h
    split at h
    · exact absurd h List.not_mem_nil
    · split at h
      · exact absurd h List.not_mem_nil
      · exact .inr ⟨_, List.mem_singleton.mp h⟩
    · exact absurd h List.not_mem_nil
  have hfold (ls : List (Text × Node)) (h : n ∈ ((ls.map (leaf g here)).foldr append empty).notes) :
      IsPassing n := by
    induction ls with
    | nil => exact absurd h List.not_mem_nil
    | cons e r ih =>
      rcases List.mem_append.mp h with h | h
      · exact hleaf e h
      · exact ih h
  rcases List.mem_append.mp h with h | h
  · obtain ⟨e, -, h⟩ := List.mem_filterMap.mp h
    unfold directoryNote? at h
    split at h
    · split at h
      · exact .inl ⟨_, (Option.some.inj h).symm⟩
      · cases h
    · cases h
  · exact hfold es h

mutual

/-- The notes of a walk are on directories and links. -/
theorem isPassing_of_mem_walk {g : Guide} {n : Note} (here : List Text) :
    ∀ m : Node, n ∈ (walk g here m).notes → IsPassing n
  | .file _, h => absurd h List.not_mem_nil
  | .link _, h => absurd h List.not_mem_nil
  | .directory es, h => by
    rcases List.mem_append.mp h with h | h
    · exact isPassing_of_mem_leaves h
    · exact isPassing_of_mem_walkAll here es h

/-- `isPassing_of_mem_walk` for the directories among entries. -/
theorem isPassing_of_mem_walkAll {g : Guide} {n : Note} (here : List Text) :
    ∀ es : List (Text × Node), n ∈ (walkAll g here es).notes → IsPassing n
  | [], h => absurd h List.not_mem_nil
  | (name, m) :: r, h => by
    rcases List.mem_append.mp h with h | h
    · split at h
      · exact isPassing_of_mem_walk (here ++ [name]) m h
      · exact absurd h List.not_mem_nil
    · exact isPassing_of_mem_walkAll here r h

end

end Listing

namespace Plugin

/-- The notes that are taken when files are listed are on directories and links. -/
theorem isPassing_of_mem_collect {p : Plugin} {d : Disk} {n : Note}
    (h : n ∈ (p.collect d).notes) : Listing.IsPassing n := by
  unfold collect at h
  -- A failure before the walk leaves no note; only the walk itself takes any.
  cases hs : p.settings.skipDirectories.elements with
  | error e =>
    rw [hs] at h
    exact absurd h List.not_mem_nil
  | ok names =>
    rw [hs, Noting.ofAttempt_ok_bind] at h
    cases hk : names.mapM Value.asKey with
    | error e =>
      rw [hk] at h
      exact absurd h List.not_mem_nil
    | ok skipped =>
    rw [hk, Noting.ofAttempt_ok_bind] at h
    cases hm : p.manifestPlace? d with
    | error e =>
      rw [hm] at h
      exact absurd h List.not_mem_nil
    | ok manifest =>
      rw [hm, Noting.ofAttempt_ok_bind, Noting.notes_bind_pure, Noting.notes_add] at h
      unfold listing at h
      split at h
      · exact Listing.isPassing_of_mem_walk [] _ h
      · exact absurd h List.not_mem_nil

/-- The notes of a walk are on no files. -/
theorem not_isOn_of_mem_collect {p : Plugin} {d : Disk} {n : Note} (h : n ∈ (p.collect d).notes)
    (relative : Text) : ¬n.IsOn relative := by
  rintro hon
  rcases isPassing_of_mem_collect h with ⟨path, rfl⟩ | ⟨path, rfl⟩
  · cases hon
  · cases hon

/-- The notes that are taken when a plugin is read: those of the walk, then those on each file. -/
theorem notes_contents {p : Plugin} {d : Disk} {m : Manifest} {paths : List Text}
    {files : List PluginFile} (hm : p.manifest d = .ok m) (hl : (p.collect d).outcome = .ok paths)
    (hf : List.Forall₂ (fun relative f => (p.file d relative).outcome = .ok f) paths files) :
    (p.contents d).notes = (p.collect d).notes ++ paths.flatMap fun r => (p.file d r).notes := by
  have hsteady (paths : List Text) : (paths.mapM (p.file d)).IsSteady :=
    Noting.isSteady_mapM (isSteady_file p d) paths
  have hfiles : (paths.mapM (p.file d)).outcome = .ok files := by
    rw [Noting.outcome_mapM (isSteady_file p d), Attempt.mapM_eq_ok_iff]
    exact hf
  unfold contents
  rw [hm, Noting.ofAttempt_ok_bind, Noting.notes_bind hl
    (Noting.isSteady_bind (hsteady paths) fun _ => Noting.isSteady_pure _), Noting.notes_bind_pure,
    Noting.notes_mapM (isSteady_file p d) hfiles]

end Plugin

namespace Analyzer

variable {a : Analyzer} {d : Disk} {path : Text}

/-- The notes of a survey are those of the walk, those on each file, and those on the manifest. -/
theorem mem_notes_of_survey {c : Contents} {found : List Evidence} {notes : List Note}
    (h : a.survey d path = .ok (c, found, notes)) :
    ∃ p paths, Plugin.open? d path a.config.files = .ok p ∧ (p.collect d).outcome = .ok paths ∧
      (∀ relative ∈ paths, ∃ f, (p.file d relative).outcome = .ok f) ∧
      ∀ n, n ∈ notes ↔ n ∈ (p.collect d).notes ∨
        (∃ relative ∈ paths, ∃ f, (p.file d relative).outcome = .ok f ∧
          n ∈ p.notesOn d a.config.scanners a.rules relative f) ∨
        n ∈ (ScanTask.ofManifest a.config.scanners c.manifest).flatMap (·.run.2) := by
  obtain ⟨p, hopen, hc, hscan⟩ := exists_of_survey h
  obtain ⟨hm, paths, hl, hfiles⟩ := Plugin.exists_of_outcome_contents hc
  have hf := Attempt.mapM_eq_ok_iff.mpr hfiles
  obtain ⟨workers, hw, -⟩ := Attempt.bind_eq_ok_iff.mp hscan
  rw [a.scan_eq _ _ hw, Plugin.notes_contents hm hl hfiles, Except.ok.injEq, Prod.mk.injEq] at hscan
  have hall := Attempt.exists_mapM_eq_ok_iff.mp ⟨_, hf⟩
  have hmem (f : PluginFile) := Attempt.mem_iff_of_mapM_eq_ok hf (y := f)
  refine ⟨p, paths, hopen, hl, hall, fun n => ?_⟩
  rw [← hscan.2]
  simp only [ScanTask.ofContents, List.mem_append, List.mem_flatMap, List.mem_map, hmem,
    Plugin.notesOn]
  -- The notes of a survey come scanner by scanner, the statement has them by file: the two sides
  -- are the same disjuncts in another order.
  constructor
  · rintro (((h | ⟨relative, hr, h⟩) | ⟨_, ⟨f, ⟨relative, hr, hfile⟩, rfl⟩, h⟩) |
      ⟨t, ht | ⟨_, ⟨f, ⟨relative, hr, hfile⟩, rfl⟩, ht⟩, h⟩)
    · exact .inl h
    · obtain ⟨f, hfile⟩ := hall relative hr
      exact .inr (.inl ⟨relative, hr, f, hfile, .inl (.inl h)⟩)
    · exact .inr (.inl ⟨relative, hr, f, hfile, .inl (.inr h)⟩)
    · exact .inr (.inr ⟨t, ht, h⟩)
    · exact .inr (.inl ⟨relative, hr, f, hfile, .inr ⟨t, ht, h⟩⟩)
  · rintro (h | ⟨relative, hr, f, hfile, (h | h) | ⟨t, ht, h⟩⟩ | ⟨t, ht, h⟩)
    · exact .inl (.inl (.inl h))
    · exact .inl (.inl (.inr ⟨relative, hr, h⟩))
    · exact .inl (.inr ⟨_, ⟨f, ⟨relative, hr, hfile⟩, rfl⟩, h⟩)
    · exact .inr ⟨t, .inr ⟨_, ⟨f, ⟨relative, hr, hfile⟩, rfl⟩, ht⟩, h⟩
    · exact .inr ⟨t, .inl ht, h⟩

/-- A note on the manifest is on no other file. -/
theorem not_isOn_of_mem_manifest {s : ScannerSettings} {m : Manifest} {n : Note}
    (h : n ∈ (ScanTask.ofManifest s m).flatMap (·.run.2)) (relative : Text) :
    ¬n.IsOn relative := by
  unfold ScanTask.ofManifest ScanTask.ifOn at h
  split at h
  · rw [List.flatMap_singleton] at h
    unfold ScanTask.run at h
    split at h
    · exact absurd h List.not_mem_nil
    · rw [List.mem_singleton.mp h]
      intro hon
      generalize hlabel : ("declaration" : Text) ++ (":" : Text) ++ m.path = label at hon
      cases hon with
      | @scanner name hname _ =>
        have heq := (Note.label_inj (by decide +kernel) (Note.hasNoColon_of_mem hname) hlabel).1
        rw [← heq] at hname
        exact absurd hname (by decide +kernel)
  · exact absurd h List.not_mem_nil

end Analyzer

/-- The files with a defect of their content are noted but for two kinds of defects. If the analysis
of a plugin gives a result, then of the files that were listed, one with a defect is noted exactly
if the defect is not passed over; the errors of the result are the words of the notes, and name the
files that they are on. -/
theorem defects_noted_iff (a : Analyzer) (d : Disk) (path : Text) (r : Result)
    (h : a.analyze d path = .ok r) :
    ∃ (p : Plugin) (paths : List Text) (notes : List Note),
      Plugin.open? d path a.config.files = .ok p ∧
      (p.collect d).outcome = .ok paths ∧ r.errors = notes.map Note.message ∧
      ∀ relative ∈ paths, p.Defective d relative →
        ((∃ n ∈ notes, n.IsOn relative) ↔ ¬p.PassedOver d relative) ∧
          (¬p.PassedOver d relative → ∃ e ∈ r.errors, relative <:+: e) := by
  obtain ⟨c, found, notes, hs, rfl⟩ := Analyzer.exists_of_analyze h
  obtain ⟨p, paths, hopen, hl, hall, hnotes⟩ := Analyzer.mem_notes_of_survey hs
  refine ⟨p, paths, notes, hopen, hl, rfl, fun relative hr hd => ?_⟩
  have hnoted (hp : ¬p.PassedOver d relative) : ∃ n ∈ notes, n.IsOn relative := by
    obtain ⟨f, hf⟩ := hall relative hr
    obtain ⟨n, hn⟩ := Plugin.exists_mem_notesOn hf hd hp
    exact ⟨n, (hnotes n).mpr (.inr (.inl ⟨relative, hr, f, hf, hn⟩)),
      Plugin.isOn_of_mem_notesOn hf hn⟩
  refine ⟨⟨?_, hnoted⟩, fun hp => ?_⟩
  · rintro ⟨n, hn, hon⟩ hp
    rcases (hnotes n).mp hn with hn | ⟨relative', -, f, hf, hn⟩ | hn
    · exact Plugin.not_isOn_of_mem_collect hn relative hon
    · -- The note is on the file that gave rise to it, which therefore is this one.
      cases (Plugin.isOn_of_mem_notesOn hf hn).unique hon
      rw [Plugin.notesOn_eq_nil hf hp] at hn
      exact absurd hn List.not_mem_nil
    · exact Analyzer.not_isOn_of_mem_manifest hn relative hon
  · obtain ⟨n, hn, hon⟩ := hnoted hp
    exact ⟨n.message, List.mem_map_of_mem hn, hon.isInfix_message⟩

/-- A plugin whose document begins with fields that are not YAML, whose server configuration is
null, and whose hook configuration is a list. -/
def flawed : Disk where
  root := .directory [("p", .directory
    [(".mcp.json", .file "null".toUTF8.toList),
    ("SKILL.md", .file "---\na: [\n---\n".toUTF8.toList),
    ("hooks.json", .file "[]".toUTF8.toList),
    ("plugin.json", .file "\x7b\"name\":\"x\"\x7d".toUTF8.toList)])]
  current := []

/-- The errors in the result for the flawed plugin: of the three files with defects, one is
named. -/
theorem errors_flawed : (plainAnalyzer.analyze flawed "/p").map (·.errors) =
    .ok ["Unrecognized hooks config in hooks.json: expected an object"] := by
  decide +kernel

/-- The files of the flawed plugin are noted exactly if their defects are not passed over. -/
theorem defects_noted_iff_flawed : ∃ r, plainAnalyzer.analyze flawed "/p" = .ok r ∧
    ∃ (p : Plugin) (paths : List Text) (notes : List Note),
      Plugin.open? flawed "/p" {} = .ok p ∧ (p.collect flawed).outcome = .ok paths ∧
        r.errors = notes.map Note.message ∧
        ∀ relative ∈ paths, p.Defective flawed relative →
          ((∃ n ∈ notes, n.IsOn relative) ↔ ¬p.PassedOver flawed relative) := by
  obtain ⟨r, hr, -⟩ := Attempt.map_eq_ok_iff.mp errors_flawed
  obtain ⟨p, paths, notes, hp, hl, herrors, hnoted⟩ :=
    defects_noted_iff plainAnalyzer flawed "/p" r hr
  exact ⟨r, hr, p, paths, notes, hp, hl, herrors, fun relative hmem hd =>
    (hnoted relative hmem hd).1⟩

/-- A reader of YAML that says that a text is malformed, told by a test. -/
theorem eq_malformed {outcome : Except Yaml.Failure Value}
    (h : (match outcome with | .error .malformed => true | _ => false) = true) :
    outcome = .error .malformed := by
  split at h
  · rfl
  · cases h

/-- Two files of the flawed plugin have a defect of their content, and no error of the result names
them. -/
theorem flaws_absorbed : ∃ (r : Result) (p : Plugin) (paths : List Text),
    plainAnalyzer.analyze flawed "/p" = .ok r ∧ Plugin.open? flawed "/p" {} = .ok p ∧
      (p.collect flawed).outcome = .ok paths ∧
      ∀ relative ∈ (["SKILL.md", ".mcp.json"] : List Text), relative ∈ paths ∧
        p.Defective flawed relative ∧ ∀ e ∈ r.errors, ¬relative <:+: e := by
  obtain ⟨r, hr, herrors⟩ := Attempt.map_eq_ok_iff.mp errors_flawed
  have hplain : flawed.plainNames "/p" = .ok ["p"] := by decide +kernel
  have hopen : Plugin.open? flawed "/p" {} = .ok ⟨["p"], {}, 1024 * 1024⟩ := by
    unfold Plugin.open?
    rw [hplain]
    rfl
  have hlisted : ((⟨["p"], {}, 1024 * 1024⟩ : Plugin).collect flawed).outcome =
      .ok [".mcp.json", "SKILL.md", "hooks.json"] := by
    decide +kernel
  -- One file has YAML that ends in the middle of a list, the other a JSON null where an object
  -- belongs.
  have hfields : Plugin.Defective ⟨["p"], {}, 1024 * 1024⟩ flawed "SKILL.md" := by
    have hyaml : Yaml.load (Markdown.unrows ["a: ["]) = .error .malformed :=
      eq_malformed (by decide +kernel)
    have hholds : Plugin.Holds ⟨["p"], {}, 1024 * 1024⟩ flawed "SKILL.md" "---\na: [\n---\n" :=
      Plugin.holds_of_outcome_textOf (by decide +kernel)
    have hcut : Markdown.cut (Text.rows "---\na: [\n---\n") = some ([("a: [" : Text)], [[]]) := by
      decide +kernel
    exact .fields (by decide +kernel) hholds hcut hyaml
  have hnull : Plugin.Defective ⟨["p"], {}, 1024 * 1024⟩ flawed ".mcp.json" := by
    have hread : Json.read "null" = .ok .null := Json.read_eq_of_agrees (by decide +kernel)
    have hholds : Plugin.Holds ⟨["p"], {}, 1024 * 1024⟩ flawed ".mcp.json" "null" :=
      Plugin.holds_of_outcome_textOf (by decide +kernel)
    have hkind : Plugin.kindOf ⟨["p"], {}, 1024 * 1024⟩ ".mcp.json" = .ok .servers := by
      decide +kernel
    exact .shape hkind (.inr rfl) hholds hread rfl
  refine ⟨r, _, _, hr, hopen, hlisted, fun relative hmem => ?_⟩
  rw [herrors]
  simp only [List.mem_cons, List.not_mem_nil, or_false] at hmem
  rcases hmem with rfl | rfl
  · exact ⟨by decide +kernel, hfields, by decide +kernel⟩
  · exact ⟨by decide +kernel, hnull, by decide +kernel⟩

end SurfaceAudit
