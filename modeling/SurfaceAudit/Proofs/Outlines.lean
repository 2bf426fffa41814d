import SurfaceAudit.Proofs.Defects
import SurfaceAudit.Proofs.Places
import SurfaceAudit.Proofs.Walk

/-!
# What does not depend on the bytes of files

The outline of a tree is the tree with empty files. Paths lead to the same places in it
(`Disk.locate_outline`), plain forms of paths are the same (`Disk.plainNames_outline`), and so is
what a walk finds (`Listing.walk_outline`). So a plugin is opened and its files are listed by the
outline alone (`Plugin.collect_outline`). If two disks differ in the bytes of one file at most,
every path that does not lead to it is read alike (`Disk.DiffersAt.read_eq`).
-/

namespace SurfaceAudit

namespace Node

mutual

/-- The tree with empty files. -/
def outline : Node → Node
  | .file _ => .file []
  | .link target => .link target
  | .directory es => .directory (outlineAll es)

/-- The entries with empty files. -/
def outlineAll : List (Text × Node) → List (Text × Node)
  | [] => []
  | (name, n) :: r => (name, outline n) :: outlineAll r

end

/-- The entries are outlined one by one, and keep their names. -/
theorem outlineAll_eq (es : List (Text × Node)) :
    outlineAll es = es.map fun e => (e.1, e.2.outline) := by
  induction es with
  | nil => rfl
  | cons e r ih =>
    obtain ⟨name, n⟩ := e
    rw [outlineAll, ih, List.map_cons]

/-- An outline is a file exactly if the tree is. -/
@[simp] theorem isFile_outline (n : Node) : n.outline.isFile = n.isFile := by cases n <;> rfl

/-- An outline is a directory exactly if the tree is. -/
@[simp] theorem isDirectory_outline (n : Node) : n.outline.isDirectory = n.isDirectory := by
  cases n <;> rfl

/-- The entry with a name is that of the outline, with empty files. -/
theorem entry?_outline (n : Node) (name : Text) :
    n.outline.entry? name = (n.entry? name).map outline := by
  cases n with
  | file bytes => rfl
  | link target => rfl
  | directory es =>
    rw [outline, outlineAll_eq]
    unfold entry? entries
    rw [List.find?_map, Option.map_map, Option.map_map]
    rfl

/-- What is some names down in the outline is what is there in the tree, with empty files. -/
theorem at?_outline (n : Node) (q : List Text) : n.outline.at? q = (n.at? q).map outline := by
  induction q generalizing n with
  | nil => rfl
  | cons name r ih =>
    rw [at?, at?, entry?_outline]
    cases n.entry? name with
    | none => rfl
    | some k => exact ih k

/-- The links of the outline are those of the tree. -/
theorem at?_outline_link_iff (n : Node) (q : List Text) (target : Text) :
    n.outline.at? q = some (.link target) ↔ n.at? q = some (.link target) := by
  rw [at?_outline]
  cases n.at? q with
  | none => simp
  | some k => cases k <;> simp [outline]

/-- A tree is another one but for the bytes of the file at a place. -/
inductive Differs : List Text → Node → Node → Prop where
  /-- It is the file. -/
  | file (bytes bytes' : List UInt8) : Differs [] (.file bytes) (.file bytes')
  /-- The file is some names down in an entry. -/
  | inside {name : Text} {r : List Text} {before after : List (Text × Node)} {m m' : Node}
    (h : ∀ e ∈ before, e.1 ≠ name) (hm : Differs r m m') :
    Differs (name :: r) (.directory (before ++ (name, m) :: after))
      (.directory (before ++ (name, m') :: after))

/-- Trees that differ in the bytes of a file have the same outline. -/
theorem Differs.outline_eq {place : List Text} {n n' : Node} (h : Differs place n n') :
    n'.outline = n.outline := by
  induction h with
  | file bytes bytes' => rfl
  | inside _ _ ih =>
    rw [outline, outline, outlineAll_eq, outlineAll_eq, List.map_append, List.map_append,
      List.map_cons, List.map_cons, ih]

/-- A file in another place has the same bytes. -/
theorem Differs.at?_eq {place q : List Text} {n n' : Node} (h : Differs place n n')
    (hq : q ≠ place) {bytes : List UInt8} (hn : n.at? q = some (.file bytes)) :
    n'.at? q = some (.file bytes) := by
  induction h generalizing q with
  | file _ _ =>
    cases q with
    | nil => exact absurd rfl hq
    | cons x q => simp [at?, entry?, entries] at hn
  | @inside name r before after m m' hname _ ih =>
    cases q with
    | nil => cases hn
    | cons x q =>
      rw [at?] at hn ⊢
      -- The other place goes on below the same entry, or leaves the way to the file here.
      by_cases hx : name = x
      · subst hx
        rw [entry?_self m hname] at hn
        rw [entry?_self m' hname]
        exact ih (fun heq => hq (heq ▸ rfl)) hn
      · rw [entry?_other before after _ hx] at hn ⊢
        exact hn

end Node

namespace Disk

/-- The disk with empty files. -/
def outline (d : Disk) : Disk := { d with root := d.root.outline }

/-- The end of a way, with empty files. -/
def Reached.outline (x : Reached) : Reached := (x.1, x.2.map Node.outline)

section Follow

variable {root : Node}

/-- Names lead to the same place in the outline, if they do where a link leads. -/
theorem followWith_outline {jump jump' : List Text → List Text → Except FileDefect Reached}
    (hjump : ∀ here names, jump' here names = (jump here names).map Reached.outline)
    (here names : List Text) : followWith root.outline jump' here names =
      (followWith root jump here names).map Reached.outline := by
  induction names generalizing here with
  | nil =>
    rw [followWith, followWith, Node.at?_outline]
    rfl
  | cons name r ih =>
    cases hn : root.at? here with
    | none =>
      rw [followWith, followWith, Node.at?_outline, hn]
      rfl
    | some n =>
      cases n with
      | file bytes =>
        rw [followWith, followWith, Node.at?_outline, hn]
        rfl
      | link target =>
        rw [followWith, followWith, Node.at?_outline, hn]
        rfl
      | directory es =>
        have hn' : root.outline.at? here = some (.directory (Node.outlineAll es)) := by
          rw [Node.at?_outline, hn]
          rfl
        rw [followWith_cons hn, followWith_cons hn']
        split
        · exact ih here.dropLast
        split
        · rfl
        -- What the name leads to is the same, but for the bytes of a file.
        have hentry : Node.entry? (.directory (Node.outlineAll es)) name =
            (Node.entry? (.directory es) name).map Node.outline :=
          Node.entry?_outline (.directory es) name
        rw [hentry]
        cases Node.entry? (.directory es) name with
        | none =>
          dsimp only [Option.map_none]
          split
          · rfl
          · rfl
        | some k =>
          cases k with
          | file bytes => exact ih (here ++ [name])
          | link target => exact hjump _ _
          | directory ks => exact ih (here ++ [name])

/-- Names lead to the same place in the outline. -/
theorem follow_outline (links : Nat) (here names : List Text) :
    follow root.outline links here names =
      (follow root links here names).map Reached.outline := by
  induction links generalizing here names with
  | zero =>
    have hloop : ∀ here names : List Text, (.error .linkLoop : Except FileDefect Reached) =
        Except.map Reached.outline (.error .linkLoop) := fun _ _ => rfl
    exact followWith_outline hloop here names
  | succ links ih => exact followWith_outline ih here names

end Follow

mutual

/-- The outline has the links of the tree. -/
theorem linkSteps_outline : ∀ n : Node, linkSteps n.outline = linkSteps n
  | .file _ => rfl
  | .link _ => rfl
  | .directory es => by
    rw [Node.outline, linkSteps, linkSteps, go_outlineAll es]

/-- `linkSteps_outline` for entries. -/
theorem go_outlineAll : ∀ es : List (Text × Node),
    linkSteps.go (Node.outlineAll es) = linkSteps.go es
  | [] => rfl
  | (name, n) :: r => by
    rw [Node.outlineAll, linkSteps.go, linkSteps.go, linkSteps_outline n, go_outlineAll r]

end

variable (d : Disk)

/-- A path leads to the same place in the outline. -/
theorem locate_outline (path : Text) :
    d.outline.locate path = (d.locate path).map Reached.outline := by
  unfold locate
  split
  · rfl
  · exact follow_outline linkLimit _ _

/-- What is at a path in the outline is what is there on the disk, with empty files. -/
theorem find?_outline (path : Text) : d.outline.find? path = (d.find? path).map Node.outline := by
  unfold find?
  rw [locate_outline]
  split
  · rfl
  · cases d.locate path <;> rfl

/-- A look at a path of the outline finds what it finds on the disk, with empty files. -/
theorem look_outline (path : Text) :
    d.outline.look path = (d.look path).map (Option.map Node.outline) := by
  unfold look
  rw [find?_outline, locate_outline]
  cases nameFault? path with
  | some f => rfl
  | none =>
    cases d.locate path with
    | ok reached => rfl
    | error defect => cases defect <;> rfl

/-- There is a file at a path of the outline if there is one on the disk. -/
theorem hasFile_outline (path : Text) : d.outline.hasFile path = d.hasFile path := by
  unfold hasFile
  rw [look_outline]
  cases d.look path with
  | error f => rfl
  | ok n => cases n <;> simp [Except.map]

/-- The first file among names is the same in the outline. -/
theorem firstFile?_outline (pathOf : Text → Text) (names : List Text) :
    d.outline.firstFile? pathOf names = d.firstFile? pathOf names := by
  induction names with
  | nil => rfl
  | cons name r ih =>
    rw [firstFile?, firstFile?, hasFile_outline, ih]

/-- A link leads to a directory of the outline if it does on the disk. -/
theorem linkIsDirectory_outline (here : List Text) (target : Text) :
    d.outline.linkIsDirectory here target = d.linkIsDirectory here target := by
  unfold linkIsDirectory
  dsimp only [outline]
  rw [follow_outline]
  cases follow d.root (linkLimit - 1) (if Path.isAbsolute target then [] else here)
      (Path.names target) with
  | error e => rfl
  | ok x =>
    obtain ⟨q, n⟩ := x
    cases n with
    | none => rfl
    | some n => cases n <;> rfl

/-- The plain form of a path is the same in the outline. -/
theorem plainNames_outline (path : Text) : d.outline.plainNames path = d.plainNames path := by
  -- Making a path plain looks at links only, and the outline has them all.
  have hplain (bound : Nat) (here rest : List Text) (links : Links) :=
    plainFrom_eq (fun q target => d.root.at?_outline_link_iff q target) bound here rest links
  have hroot : d.outline.root = d.root.outline := rfl
  have hstart : d.outline.startOf path = d.startOf path := rfl
  unfold plainNames
  rw [hroot, hstart, linkSteps_outline]
  cases nameFault? (Path.tidy path) with
  | some f => rfl
  | none =>
    dsimp only
    rw [hplain]
    generalize plainFrom d.root _ _ _ _ = end_
    obtain ⟨reached, isPlain, links⟩ := end_
    cases isPlain with
    | true => rfl
    | false =>
      dsimp only
      rw [follow_outline]
      cases follow d.root linkLimit [] (withoutUps reached) with
      | ok x => rfl
      | error e => cases e <;> rfl

/-- Two disks are the same but for the bytes of the file at a place. -/
structure DiffersAt (d : Disk) (place : List Text) (d' : Disk) : Prop where
  /-- The outlines are the same, and so are the current directories. -/
  outline_eq : d'.outline = d.outline
  /-- A file in another place has the same bytes. -/
  at?_eq : ∀ q ≠ place, ∀ bytes, d.root.at? q = some (.file bytes) →
    d'.root.at? q = some (.file bytes)

variable {d} in
/-- Disks whose trees differ in the bytes of a file differ at its place. -/
theorem differsAt_of_differs {place : List Text} {d' : Disk} (h : Node.Differs place d.root d'.root)
    (hc : d'.current = d.current) : d.DiffersAt place d' where
  outline_eq := by rw [outline, outline, h.outline_eq, hc]
  at?_eq _ hq _ hn := h.at?_eq hq hn

variable {d} in
/-- A path leads nowhere on both disks, for the same reason, or to the same place, and what is there
is the same but for the bytes of files. -/
theorem DiffersAt.locate_cases {place : List Text} {d' : Disk} (h : d.DiffersAt place d')
    (path : Text) :
    (∃ e, d.locate path = .error e ∧ d'.locate path = .error e) ∨
    ∃ q node node', d.locate path = .ok (q, node) ∧ d'.locate path = .ok (q, node') ∧
      node'.map Node.outline = node.map Node.outline := by
  -- Both disks have the same outline, so what is found on one of them tells the outline of the
  -- other.
  have hlocate : (d'.locate path).map Reached.outline = (d.locate path).map Reached.outline := by
    rw [← locate_outline, ← locate_outline, h.outline_eq]
  cases hl : d.locate path with
  | error e =>
    rw [hl] at hlocate
    cases hl' : d'.locate path with
    | error e' =>
      rw [hl'] at hlocate
      cases hlocate
      exact .inl ⟨e, rfl, rfl⟩
    | ok x =>
      rw [hl'] at hlocate
      cases hlocate
  | ok x =>
    rw [hl] at hlocate
    cases hl' : d'.locate path with
    | error e =>
      rw [hl'] at hlocate
      cases hlocate
    | ok x' =>
      obtain ⟨q, node⟩ := x
      obtain ⟨q', node'⟩ := x'
      rw [hl'] at hlocate
      simp only [Except.map, Reached.outline, Except.ok.injEq, Prod.mk.injEq] at hlocate
      obtain ⟨rfl, hnode⟩ := hlocate
      exact .inr ⟨q', node, node', rfl, rfl, hnode⟩

variable {d} in
/-- A path that does not lead to the place where the disks differ is read alike. -/
theorem DiffersAt.read_eq {place : List Text} {d' : Disk} (h : d.DiffersAt place d') {path : Text}
    (hpath : ∀ node, d.locate path ≠ .ok (place, node)) : d'.read path = d.read path := by
  unfold read
  cases nameFault? path with
  | some f => rfl
  | none =>
    rcases h.locate_cases path with ⟨e, hl, hl'⟩ | ⟨q, node, node', hl, hl', hnode⟩
    · rw [hl, hl']
    rw [hl, hl']
    cases node with
    | none =>
      rw [Option.map_eq_none_iff.mp hnode]
    | some n =>
      obtain ⟨n', rfl, hn⟩ := Option.map_eq_some_iff.mp hnode
      cases n with
      | file bytes =>
        -- The bytes are those of a file elsewhere, which the disks have in common.
        have hq : q ≠ place := by
          rintro rfl
          exact hpath _ hl
        have hsame : d'.root.at? q = some (.file bytes) := h.at?_eq q hq bytes (at?_of_locate hl)
        rw [at?_of_locate hl'] at hsame
        cases hsame
        rfl
      | link target =>
        cases n' with
        | link target' => rfl
        | file bytes => cases hn
        | directory es => cases hn
      | directory es =>
        cases n' with
        | directory es' => rfl
        | file bytes => cases hn
        | link target => cases hn

end Disk

namespace Listing

mutual

/-- A walk finds the same in the outline. -/
theorem walk_outline (g : Guide) (here : List Text) :
    ∀ n : Node, walk g here n.outline = walk g here n
  | .file _ => rfl
  | .link _ => rfl
  | .directory es => by
    have hleaves : leaves g here (Node.outlineAll es) = leaves g here es := by
      have hnote (e : Text × Node) :
          directoryNote? g here (e.1, e.2.outline) = directoryNote? g here e := by
        obtain ⟨name, n⟩ := e
        cases n <;> rfl
      have hleaf (e : Text × Node) : leaf g here (e.1, e.2.outline) = leaf g here e := by
        obtain ⟨name, n⟩ := e
        cases n <;> rfl
      unfold leaves
      rw [Node.outlineAll_eq, List.filterMap_map, List.map_map]
      simp only [Function.comp_def, hnote, hleaf]
    rw [Node.outline, walk, walk, hleaves, walkAll_outline g here es]

/-- `walk_outline` for the directories among entries. -/
theorem walkAll_outline (g : Guide) (here : List Text) :
    ∀ es : List (Text × Node), walkAll g here (Node.outlineAll es) = walkAll g here es
  | [] => rfl
  | (name, n) :: r => by
    rw [Node.outlineAll, walkAll, walkAll, walk_outline g (here ++ [name]) n,
      walkAll_outline g here r]

end

end Listing

namespace Plugin

variable (p : Plugin) (d : Disk)

/-- A plugin is opened by the outline alone. -/
theorem open?_outline (path : Text) (s : FileSettings) :
    open? d.outline path s = open? d path s := by
  unfold open?
  rw [Disk.plainNames_outline]

/-- The manifest is in the same place in the outline. -/
theorem manifestPlace?_outline : p.manifestPlace? d.outline = p.manifestPlace? d := by
  unfold manifestPlace?
  rw [Disk.firstFile?_outline]

/-- A walk through the plugin finds the same in the outline. -/
theorem listing_outline (skipped : List Value) :
    p.listing d.outline skipped = p.listing d skipped := by
  have hguide : p.guide d.outline skipped = p.guide d skipped := by
    unfold guide
    simp only [Disk.linkIsDirectory_outline]
  unfold listing
  rw [Disk.find?_outline, hguide]
  cases d.find? p.path with
  | none => rfl
  | some n => exact Listing.walk_outline _ [] n

/-- The files of a plugin are listed by the outline alone. -/
theorem collect_outline : p.collect d.outline = p.collect d := by
  unfold collect pathsIn
  simp only [listing_outline, manifestPlace?_outline]

/-- The files of a plugin as they are listed and read. -/
def reading : Noting (List PluginFile) := p.collect d >>= fun paths => paths.mapM (p.file d)

variable {p d}

/-- A plugin with a manifest is read by reading its files. -/
theorem contents_of_manifest {m : Manifest} (hm : p.manifest d = .ok m) :
    p.contents d = p.reading d >>= fun files => pure ⟨p.path, m, files⟩ := by
  unfold contents reading
  rw [hm, Noting.ofAttempt_ok_bind, bind_assoc]

/-- If two disks are the same but for a file that is not among those of a plugin that are looked at,
the files of the plugin are read alike. -/
theorem reading_eq {place : List Text} {d' : Disk} (h : d.DiffersAt place d')
    (happart : ∀ paths, (p.collect d).outcome = .ok paths → ∀ relative ∈ paths,
      p.kindOf relative ≠ .ok .other → ∀ node, d.locate (p.pathOf relative) ≠ .ok (place, node)) :
    p.reading d' = p.reading d := by
  -- Listing files looks at no bytes, so it is the same on both disks; then each file is read alike.
  have hcollect : p.collect d' = p.collect d := by
    rw [← collect_outline, h.outline_eq, collect_outline]
  unfold reading
  rw [hcollect]
  refine Noting.bind_congr_outcome (isSteady_collect p d) fun paths hl => ?_
  refine Noting.mapM_congr_mem fun relative hr => ?_
  cases hk : p.kindOf relative with
  | error f =>
    unfold file
    rw [hk]
    rfl
  | ok kind =>
    by_cases ho : kind = .other
    · unfold file
      rw [hk, ho]
      rfl
    · have hread : d'.read (p.pathOf relative) = d.read (p.pathOf relative) := by
        refine h.read_eq (happart paths hl relative hr ?_)
        rw [hk]
        exact fun heq => ho (Except.ok.inj heq)
      rw [file_eq hk ho, file_eq hk ho]
      unfold textOf
      rw [hread]

end Plugin

end SurfaceAudit
