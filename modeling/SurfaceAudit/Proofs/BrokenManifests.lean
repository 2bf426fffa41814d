import SurfaceAudit.Proofs.Outlines
import SurfaceAudit.Proofs.Roots

/-!
# What a broken manifest does to a search

Which directories hold a manifest is seen from the outline of the tree, so the bytes of the
manifests bear on the names of the plugins alone (`Discovery.map_sort_eq`). The name is that in the
manifest, or that of the directory if the manifest gives none (`Discovery.IsListed`), and the bytes
of one manifest bear on no other plugin (`broken_manifests_listed`). Only an integer with too many
digits is neither a name nor none: it ends the search, and no plugin is listed
(`endless_integer_stops`).
-/

namespace SurfaceAudit

namespace Manifest

/-- The bytes of a manifest give a name: they are a text that is JSON, an object with a name that is
a text and not empty. -/
def Names (bytes : List UInt8) (name : Text) : Prop :=
  ∃ t v es, Utf8.read bytes = .ok t ∧ Json.read t = .ok v ∧ v.entries? = some es ∧
    Value.field es "name" = .text name ∧ name ≠ []

/-- The bytes of a manifest have an integer with too many digits, where JSON could be read. -/
def Overflows (bytes : List UInt8) (digits : Nat) : Prop :=
  ∃ t, Utf8.read bytes = .ok t ∧ Json.read t = .error (.digits digits)

/-- The name in entries is a text that is not empty. -/
theorem nameOf?_eq_some_iff {es : List (Value × Value)} {name : Text} :
    nameOf? es = some name ↔ Value.field es "name" = .text name ∧ name ≠ [] := by
  unfold nameOf?
  rw [Option.filter_eq_some_iff]
  cases Value.field es "name" <;> simp [Value.text?]

end Manifest

namespace Node

mutual

/-- The outline of a proper tree is proper, and a tree with a proper outline is. -/
theorem isProper_outline : ∀ n : Node, n.outline.IsProper ↔ n.IsProper
  | .file _ => iff_of_true (.file []) (.file _)
  | .link target => Iff.rfl
  | .directory es => by
    have hnames : (outlineAll es).map (·.1) = es.map (·.1) := by
      rw [outlineAll_eq, List.map_map]
      rfl
    have hname : (∀ e ∈ outlineAll es, Path.IsName e.1) ↔ ∀ e ∈ es, Path.IsName e.1 := by
      rw [outlineAll_eq, List.forall_mem_map]
    constructor
    · rintro (_ | _ | ⟨names, once, inner⟩)
      exact .directory (hname.mp names) (hnames ▸ once) ((areProper_outline es).mp inner)
    · rintro (_ | _ | ⟨names, once, inner⟩)
      exact .directory (hname.mpr names) (hnames.symm ▸ once) ((areProper_outline es).mpr inner)

/-- `isProper_outline` for entries. -/
theorem areProper_outline : ∀ es : List (Text × Node),
    (∀ e ∈ outlineAll es, e.2.IsProper) ↔ ∀ e ∈ es, e.2.IsProper
  | [] => Iff.rfl
  | (name, n) :: r => by
    rw [outlineAll, List.forall_mem_cons, List.forall_mem_cons, isProper_outline n,
      areProper_outline r]

end

end Node

namespace Discovery

variable {d d' : Disk} {root : List Text} {path file : Text} {bytes : List UInt8}

section Names

/-- A manifest that is read gives a name exactly if its bytes do. -/
theorem nameIn?_eq_some_iff (h : d.read file = .ok bytes) {name : Text} :
    nameIn? d file = .ok (some name) ↔ Manifest.Names bytes name := by
  unfold nameIn? Manifest.Names
  simp only [h]
  cases Utf8.read bytes with
  | error defect => simp
  | ok t =>
  cases hv : Json.read t with
  | error refusal => cases refusal <;> simp [hv]
  | ok v => simp [hv, Option.bind_eq_some_iff, Manifest.nameOf?_eq_some_iff]

/-- A manifest that is read is at fault exactly if its bytes have an integer with too many digits.
-/
theorem nameIn?_eq_error_iff (h : d.read file = .ok bytes) {f : Fault} :
    nameIn? d file = .error f ↔
      ∃ digits, Manifest.Overflows bytes digits ∧ f = .tooManyDigits (some digits) := by
  unfold nameIn? Manifest.Overflows
  simp only [h]
  cases Utf8.read bytes with
  | error defect => simp
  | ok t =>
  cases hv : Json.read t with
  | error refusal => cases refusal <;> simp [hv, eq_comm]
  | ok v => simp [hv]

end Names

/-- The manifest at a path is found and can be read. -/
theorem exists_read_of_manifestBelow (h : manifestBelow d path = .ok (some file)) :
    ∃ bytes, d.read file = .ok bytes := by
  obtain ⟨-, -, -, hfile, -⟩ := Disk.firstFile?_eq_some h
  exact Disk.exists_read_of_hasFile hfile

/-- The directory at a path is no obstacle to a search: its path is too long to be opened, or the
places of its manifest can be looked at, and the manifest there has no integer with too many digits.
-/
def IsClear (d : Disk) (path : Text) : Prop :=
  (∀ f, manifestBelow d path = .error f → Disk.pathLimit < Disk.byteCount path) ∧
    ∀ file bytes digits, manifestBelow d path = .ok (some file) → d.read file = .ok bytes →
      ¬Manifest.Overflows bytes digits

/-- A search is stopped at a directory exactly if that is an obstacle. -/
theorem isClear_iff : IsClear d path ↔ ∀ f, ¬StopsAt d path f := by
  constructor
  · rintro ⟨hplace, hmanifest⟩ f (⟨hfits, hf⟩ | @⟨file, _, hfile, hf⟩)
    · exact absurd (hplace f hf) hfits.not_gt
    · obtain ⟨bytes, hread⟩ := exists_read_of_manifestBelow hfile
      obtain ⟨digits, hover, -⟩ := (nameIn?_eq_error_iff hread).mp hf
      exact hmanifest file bytes digits hfile hread hover
  · intro h
    refine ⟨fun f hf => ?_, fun file bytes digits hfile hread hover => ?_⟩
    · by_contra hfits
      exact h f (.place (Nat.le_of_not_lt hfits) hf)
    · exact h _ (.manifest hfile ((nameIn?_eq_error_iff hread).mpr ⟨digits, hover, rfl⟩))

/-- What stops a search is a path that is too long, or an integer with too many digits. -/
theorem StopsAt.eq_or_eq {f : Fault} (h : StopsAt d path f) :
    (∃ long, f = .file .nameTooLong long) ∨ ∃ digits, f = .tooManyDigits (some digits) := by
  cases h with
  | place _ h => exact .inl (Disk.firstFile?_eq_error h)
  | manifest hfile hf =>
    obtain ⟨bytes, hread⟩ := exists_read_of_manifestBelow hfile
    obtain ⟨digits, -, rfl⟩ := (nameIn?_eq_error_iff hread).mp hf
    exact .inr ⟨digits, rfl⟩

/-- A plugin is listed by the manifest in its directory: under the name there, or under that of the
directory if there is none. -/
structure IsListed (d : Disk) (p : DiscoveredPlugin) : Prop where
  /-- The manifest is found and read, and its bytes decide about the name. -/
  manifest : ∃ file bytes, manifestBelow d p.path = .ok (some file) ∧ d.read file = .ok bytes ∧
    (Manifest.Names bytes p.name ∨
      (∀ name, ¬Manifest.Names bytes name) ∧ p.name = Path.lastName p.path)

/-- A plugin that is made of a manifest is listed by it. -/
theorem isListed_of_plugin {p : DiscoveredPlugin} (hfile : manifestBelow d path = .ok (some file))
    (hp : plugin d path file = .ok p) : IsListed d p := by
  obtain ⟨bytes, hread⟩ := exists_read_of_manifestBelow hfile
  obtain ⟨name?, hname, rfl⟩ := Attempt.map_eq_ok_iff.mp hp
  refine ⟨file, bytes, hfile, hread, ?_⟩
  cases name? with
  | some name => exact .inl ((nameIn?_eq_some_iff hread).mp hname)
  | none =>
    refine .inr ⟨fun name h => ?_, rfl⟩
    cases hname.symm.trans ((nameIn?_eq_some_iff hread).mpr h)

section Outline

/-- The manifest is looked for by the outline alone. -/
theorem manifestBelow_congr (h : d'.outline = d.outline) (path : Text) :
    manifestBelow d' path = manifestBelow d path := by
  unfold manifestBelow
  rw [← Disk.firstFile?_outline, h, Disk.firstFile?_outline]

/-- Whether a directory holds a manifest is seen from the outline. -/
theorem holdsManifest_congr (h : d'.outline = d.outline) (path : Text) :
    HoldsManifest d' path ↔ HoldsManifest d path := by
  unfold HoldsManifest
  simp only [← Disk.hasFile_outline d', h, Disk.hasFile_outline]

/-- In a tree with the same outline a search reaches the same directories. -/
theorem IsReached.congr (h : d'.outline = d.outline) {n n' : Node} (hn : n'.outline = n.outline)
    {here below : List Text} (hr : IsReached d root here n below) :
    IsReached d' root here n' below := by
  obtain ⟨⟨es, hes⟩, kept, depth, outermost⟩ := hr
  refine ⟨?_, kept, depth, fun above ha hne => ?_⟩
  · have hat : (n'.at? below).map Node.outline = some (.directory (Node.outlineAll es)) := by
      rw [← Node.at?_outline, hn, Node.at?_outline, hes]
      rfl
    obtain ⟨m, hm, hout⟩ := Option.map_eq_some_iff.mp hat
    cases m with
    | directory es' => exact ⟨es', hm⟩
    | file bytes => cases hout
    | link target => cases hout
  · rw [holdsManifest_congr h]
    exact outermost above ha hne

/-- Two searches that find plugins in the same directories find them in the same order. -/
theorem map_sort_eq {found found' : List Found} (once : (found.map (·.1)).Nodup)
    (once' : (found'.map (·.1)).Nodup)
    (hnames : ∀ below ∈ found.map (·.1), ∀ name ∈ below, Path.IsName name)
    (hmem : ∀ below, below ∈ found'.map (·.1) ↔ below ∈ found.map (·.1)) :
    (Rank.sort (fun a b => Text.le (orderKey a.1) (orderKey b.1)) found').map (·.1) =
      (Rank.sort (fun a b => Text.le (orderKey a.1) (orderKey b.1)) found).map (·.1) := by
  have hsorted := pairwise_sort once hnames
  have hsorted' := pairwise_sort once' fun below hb => hnames below ((hmem below).mp hb)
  have hperm : (found'.map (·.1)).Perm (found.map (·.1)) :=
    (List.perm_ext_iff_of_nodup once' once).mpr hmem
  -- A strict order leaves one arrangement of the directories.
  refine List.Perm.eq_of_pairwise (fun a b _ _ hab hba => ?_) hsorted' hsorted
    ((((Rank.perm_sort _ found').map _).trans hperm).trans ((Rank.perm_sort _ found).map _).symm)
  exact absurd (Text.le_antisymm hab.1 hba.1) hab.2

end Outline

/-- What there is at a path is the same in a tree with the same outline, but for the bytes of files.
-/
theorem exists_look_of_outline (h : d'.outline = d.outline) {n : Node}
    (hn : d.look path = .ok (some n)) :
    ∃ n', d'.look path = .ok (some n') ∧ n'.outline = n.outline := by
  have hlook : (d'.look path).map (Option.map Node.outline) = .ok (some n.outline) := by
    rw [← Disk.look_outline, h, Disk.look_outline, hn]
    rfl
  obtain ⟨n?, hn', hout⟩ := Attempt.map_eq_ok_iff.mp hlook
  obtain ⟨n', rfl, hsame⟩ := Option.map_eq_some_iff.mp hout
  exact ⟨n', hn', hsame⟩

section Search

variable {n : Node} {ps : List DiscoveredPlugin}

/-- A search below a path ends if no directory that it reaches is an obstacle, and only then. -/
theorem exists_plugins_iff_isClear (hroot : d.plainNames path = .ok root)
    (hn : d.look (Path.absolute root) = .ok (some n)) (hproper : n.IsProper) :
    (∃ ps, plugins d path = .ok ps) ↔
      ∀ below, IsReached d root [] n below → IsClear d (pathFrom root below) := by
  simp only [isClear_iff]
  exact exists_plugins_iff hroot hn hproper

/-- A search that fails has a path that is too long at fault, or an integer with too many digits. -/
theorem eq_or_eq_of_plugins (hroot : d.plainNames path = .ok root)
    (hn : d.look (Path.absolute root) = .ok (some n)) (hproper : n.IsProper) {f : Fault}
    (h : plugins d path = .error f) :
    (∃ long, f = .file .nameTooLong long) ∨ ∃ digits, f = .tooManyDigits (some digits) := by
  have hsearched := searched_root d root hproper
  rw [plugins_eq hroot hn] at h
  rw [Attempt.map_eq_error_iff.mp h] at hsearched
  cases hsearched with
  | stops _ h => exact h.eq_or_eq

/-- A search that ends has found what there is in the directories that it reaches. -/
theorem exists_found_of_plugins (hroot : d.plainNames path = .ok root)
    (hn : d.look (Path.absolute root) = .ok (some n)) (hproper : n.IsProper)
    (hps : plugins d path = .ok ps) :
    ∃ found, Finds d root (IsReached d root [] n) found ∧ ps = inOrder found := by
  have hsearched := searched_root d root hproper
  rw [plugins_eq hroot hn] at hps
  obtain ⟨found, hfound, rfl⟩ := Attempt.map_eq_ok_iff.mp hps
  rw [hfound] at hsearched
  cases hsearched with
  | finds _ h => exact ⟨found, h, rfl⟩

/-- A plugin that is found is in a directory that the search reaches, and is made of the manifest
there. -/
theorem exists_of_mem_inOrder {reached : List Text → Prop} {found : List Found}
    (h : Finds d root reached found) {p : DiscoveredPlugin} (hp : p ∈ inOrder found) :
    ∃ below file, reached below ∧ p.path = pathFrom root below ∧
      manifestBelow d p.path = .ok (some file) ∧ plugin d p.path file = .ok p := by
  obtain ⟨x, hx, rfl⟩ := List.mem_map.mp hp
  have hx : x ∈ found := (Rank.perm_sort _ found).mem_iff.mp hx
  obtain ⟨file, hfile, hmade⟩ := h.plugin x hx
  have hpath := path_of_plugin hmade
  rw [← hpath] at hfile hmade
  exact ⟨x.1, file, ((h.mem x.1).mp (List.mem_map_of_mem hx)).1, hpath, hfile, hmade⟩

/-- A directory that holds a manifest and is reached has a plugin that is found there. -/
theorem exists_mem_inOrder {reached : List Text → Prop} {found : List Found}
    (h : Finds d root reached found) {below : List Text} (hr : reached below)
    (hm : HoldsManifest d (pathFrom root below)) :
    ∃ p ∈ inOrder found, p.path = pathFrom root below := by
  obtain ⟨x, hx, rfl⟩ := List.mem_map.mp ((h.mem below).mpr ⟨hr, hm⟩)
  obtain ⟨file, -, hmade⟩ := h.plugin x hx
  exact ⟨x.2, List.mem_map_of_mem ((Rank.perm_sort _ found).mem_iff.mpr hx), path_of_plugin hmade⟩

end Search

/-- An entry of one search and an entry of another one, in a tree with the same outline, are of the
same directory, and they are the same if the manifest there has the same bytes. -/
structure IsListedAlike (d d' : Disk) (p p' : DiscoveredPlugin) : Prop where
  /-- They are of the same directory. -/
  path : p'.path = p.path
  /-- They are the same if the manifest is. -/
  same : (∀ file, manifestBelow d p.path = .ok (some file) → d'.read file = d.read file) → p' = p

/-- Plugins that are made of manifests in the same directory are listed alike. -/
theorem isListedAlike_of_plugin (h : d'.outline = d.outline) {file' : Text}
    {p p' : DiscoveredPlugin} (hfile : manifestBelow d path = .ok (some file))
    (hfile' : manifestBelow d' path = .ok (some file')) (hp : plugin d path file = .ok p)
    (hp' : plugin d' path file' = .ok p') : IsListedAlike d d' p p' := by
  have hpath := path_of_plugin hp
  refine ⟨(path_of_plugin hp').trans hpath.symm, fun hsame => ?_⟩
  rw [manifestBelow_congr h] at hfile'
  cases hfile.symm.trans hfile'
  have hread : d'.read file = d.read file := hsame file (hpath ▸ hfile)
  unfold plugin nameIn? at hp hp'
  rw [hread] at hp'
  exact Except.ok.inj (hp'.symm.trans hp)

/-- Two searches in trees with the same outline list the same directories, each alike. -/
theorem forall₂_isListedAlike (h : d'.outline = d.outline) {reached reached' : List Text → Prop}
    {found found' : List Found} (hf : Finds d root reached found)
    (hf' : Finds d' root reached' found') (hreached : ∀ below, reached' below ↔ reached below)
    (hnames : ∀ below, reached below → ∀ name ∈ below, Path.IsName name) :
    List.Forall₂ (IsListedAlike d d') (inOrder found) (inOrder found') := by
  have hmem (below : List Text) : below ∈ found'.map (·.1) ↔ below ∈ found.map (·.1) := by
    rw [hf.mem, hf'.mem, hreached, holdsManifest_congr h]
  have hsorted := map_sort_eq hf.once hf'.once
    (fun below hb => hnames below ((hf.mem below).mp hb).1) hmem
  rw [← List.forall₂_eq_eq_eq, List.forall₂_map_left_iff, List.forall₂_map_right_iff] at hsorted
  unfold inOrder
  rw [List.forall₂_map_left_iff, List.forall₂_map_right_iff]
  -- Both sides are found, so that both are made of the manifests in their directories.
  have hfound' := (List.forall₂_and_left _ _).mpr
    ⟨fun x' hx' => hf'.plugin x' ((Rank.perm_sort _ found').mem_iff.mp hx'), hsorted⟩
  have hfound := (List.forall₂_and_left _ _).mpr
    ⟨fun x hx => hf.plugin x ((Rank.perm_sort _ found).mem_iff.mp hx), hfound'.flip⟩
  refine hfound.imp fun x x' => ?_
  rintro ⟨⟨file, hfile, hp⟩, ⟨file', hfile', hp'⟩, hsame⟩
  rw [hsame] at hfile' hp'
  exact isListedAlike_of_plugin h hfile hfile' hp hp'

end Discovery

open Discovery

/-- A search below a path that is within reach ends exactly if each directory that it reaches is
clear, and only a path that is too long or an integer with too many digits is at fault. In a search
that ends each plugin is listed by its manifest. In a tree that differs in the bytes of files alone
the search ends as well, if it is within reach, unless the manifest of one of the plugins has an
integer with too many digits, and it lists the same directories, with the same plugin in each where
the manifest has the same bytes. -/
theorem broken_manifests_listed {d : Disk} {path : Text} {root : List Text} {n : Node}
    (hroot : d.plainNames path = .ok root) (hn : d.look (Path.absolute root) = .ok (some n))
    (hproper : d.root.IsProper) :
    (IsWithinReach d path →
      ((∃ ps, plugins d path = .ok ps) ↔
        ∀ below, IsReached d root [] n below → IsClear d (pathFrom root below)) ∧
      ∀ f, plugins d path = .error f →
        (∃ long, f = .file .nameTooLong long) ∨ ∃ digits, f = .tooManyDigits (some digits)) ∧
    ∀ ps, plugins d path = .ok ps →
      (∀ p ∈ ps, IsListed d p) ∧
      ∀ d' : Disk, d'.outline = d.outline →
        (IsWithinReach d' path →
          ((∃ ps', plugins d' path = .ok ps') ↔
            ∀ p ∈ ps, ∀ file bytes digits, manifestBelow d p.path = .ok (some file) →
              d'.read file = .ok bytes → ¬Manifest.Overflows bytes digits)) ∧
        ∀ ps', plugins d' path = .ok ps' → List.Forall₂ (IsListedAlike d d') ps ps' := by
  have hnode : n.IsProper := Disk.isProper_of_find? hproper (Disk.find?_of_look hn)
  refine ⟨fun _ => ⟨exists_plugins_iff_isClear hroot hn hnode,
    fun f => eq_or_eq_of_plugins hroot hn hnode⟩, fun ps hps => ?_⟩
  obtain ⟨found, hfinds, rfl⟩ := exists_found_of_plugins hroot hn hnode hps
  refine ⟨fun p hp => ?_, fun d' hout => ?_⟩
  · obtain ⟨_, _, -, -, hfile, hmade⟩ := exists_of_mem_inOrder hfinds hp
    exact isListed_of_plugin hfile hmade
  obtain ⟨n', hn', hsame⟩ := exists_look_of_outline hout hn
  have hroot' : d'.plainNames path = .ok root := by
    rw [← hroot, ← Disk.plainNames_outline, hout, Disk.plainNames_outline]
  have hnode' : n'.IsProper := by
    rw [← Node.isProper_outline, hsame, Node.isProper_outline]
    exact hnode
  have hreached (below : List Text) : IsReached d' root [] n' below ↔ IsReached d root [] n below :=
    ⟨.congr hout.symm hsame.symm, .congr hout hsame⟩
  constructor
  · intro _
    rw [exists_plugins_iff_isClear hroot' hn' hnode']
    constructor
    · intro hclear p hp file bytes digits hfile hread
      obtain ⟨below, _, hr, hpath, -, -⟩ := exists_of_mem_inOrder hfinds hp
      rw [hpath] at hfile
      exact (hclear below ((hreached below).mpr hr)).2 file bytes digits
        ((manifestBelow_congr hout _).trans hfile) hread
    · intro hfew below hr
      rw [hreached] at hr
      have hclear := (exists_plugins_iff_isClear hroot hn hnode).mp ⟨_, hps⟩ below hr
      refine ⟨fun f hf => hclear.1 f ((manifestBelow_congr hout _).symm.trans hf),
        fun file bytes digits hfile hread => ?_⟩
      rw [manifestBelow_congr hout] at hfile
      obtain ⟨p, hp, hpath⟩ := exists_mem_inOrder hfinds hr (holdsManifest_of_manifestBelow hfile)
      exact hfew p hp file bytes digits (hpath ▸ hfile) hread
  · intro ps' hps'
    obtain ⟨found', hfinds', rfl⟩ := exists_found_of_plugins hroot' hn' hnode' hps'
    refine forall₂_isListedAlike hout hfinds hfinds' hreached fun below hr => ?_
    obtain ⟨es, hes⟩ := hr.directory
    exact hnode.isName hes

/-- The tree of the street, but for a manifest that is no text. -/
def spoiled : Disk where
  root := .directory [("m", .directory [
    ("a", .directory [
      ("b", .directory [("plugin.json", .file "\x7b\"name\":\"inner\"\x7d".toUTF8.toList)]),
      ("plugin.json", .file [255])]),
    ("c", .link "a"),
    ("dist", .directory [("plugin.json", .file "\x7b\"name\":\"built\"\x7d".toUTF8.toList)]),
    ("e", .directory [(".claude-plugin", .directory
      [("plugin.json", .file "[]".toUTF8.toList)])])])]
  current := []

/-- With a manifest that is no text, the plugin there has the name of its directory, and the other
one is listed as before. -/
theorem broken_manifests_listed_spoiled : street.plainNames "/m" = .ok ["m"] ∧
    street.look (Path.absolute ["m"]) = .ok (some shop) ∧ street.root.IsProper ∧
    IsWithinReach street "/m" ∧ IsWithinReach spoiled "/m" ∧
    (∀ below, IsReached street ["m"] [] shop below → IsClear street (pathFrom ["m"] below)) ∧
    plugins street "/m" = .ok [⟨"/m/a", "outer"⟩, ⟨"/m/e", "e"⟩] ∧
    (∀ p ∈ ([⟨"/m/a", "outer"⟩, ⟨"/m/e", "e"⟩] : List DiscoveredPlugin), IsListed street p ∧
      ∀ file bytes digits, manifestBelow street p.path = .ok (some file) →
        spoiled.read file = .ok bytes → ¬Manifest.Overflows bytes digits) ∧
    spoiled.outline = street.outline ∧
    plugins spoiled "/m" = .ok [⟨"/m/a", "a"⟩, ⟨"/m/e", "e"⟩] ∧
    List.Forall₂ (IsListedAlike street spoiled) [⟨"/m/a", "outer"⟩, ⟨"/m/e", "e"⟩]
      [⟨"/m/a", "a"⟩, ⟨"/m/e", "e"⟩] := by
  have hroot : street.plainNames "/m" = .ok ["m"] := by decide +kernel
  have hn : street.look (Path.absolute ["m"]) = .ok (some shop) := rfl
  have hproper : street.root.IsProper := by decide +kernel
  have hps : plugins street "/m" = .ok [⟨"/m/a", "outer"⟩, ⟨"/m/e", "e"⟩] := by decide +kernel
  have hps' : plugins spoiled "/m" = .ok [⟨"/m/a", "a"⟩, ⟨"/m/e", "e"⟩] := by decide +kernel
  have hreach : IsWithinReach street "/m" :=
    isWithinReach_of_root (by decide +kernel) (by decide +kernel)
  have hreach' : IsWithinReach spoiled "/m" :=
    isWithinReach_of_root (by decide +kernel) (by decide +kernel)
  obtain ⟨hends, hlists⟩ := broken_manifests_listed hroot hn hproper
  obtain ⟨hlisted, hother⟩ := hlists _ hps
  obtain ⟨hends', halike⟩ := hother spoiled rfl
  exact ⟨hroot, hn, hproper, hreach, hreach', (hends hreach).1.mp ⟨_, hps⟩, hps,
    fun p hp => ⟨hlisted p hp, (hends' hreach').mp ⟨_, hps'⟩ p hp⟩, rfl, hps', halike _ hps'⟩

/-- A tree with a sound plugin, and one with an integer that has too many digits in its manifest. -/
def hostile : Disk where
  root := .directory [
    ("a", .directory [("plugin.json", .file ("\x7b\"name\":\"x\",\"v\":".toUTF8.toList ++
      List.replicate 4301 49 ++ "\x7d".toUTF8.toList))]),
    ("b", .directory [("plugin.json", .file "\x7b\"name\":\"y\"\x7d".toUTF8.toList)])]
  current := []

/-- The integer ends the search, and neither plugin is listed. -/
theorem endless_integer_stops : hostile.root.IsProper ∧ hostile.hasDirectory "/" = .ok true ∧
    plugins hostile "/" = .error (.tooManyDigits (some 4301)) ∧
    ∀ ps, plugins hostile "/" ≠ .ok ps := by
  have h : plugins hostile "/" = .error (.tooManyDigits (some 4301)) := by decide +kernel
  exact ⟨by decide +kernel, by decide +kernel, h, fun ps hps => nomatch h.symm.trans hps⟩

end SurfaceAudit
