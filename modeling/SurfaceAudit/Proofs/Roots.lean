import SurfaceAudit.Discovery
import SurfaceAudit.Proofs.Arrangement
import SurfaceAudit.Proofs.Reach

/-!
# Which plugins a search finds

A search goes down through the directories of a tree. It reaches a directory (`Discovery.IsReached`)
if no name on the way is passed over, the way is not too long, and no directory on it holds a
manifest. The search ends with a fault exactly if it is stopped at a directory that it reaches, and
otherwise it finds those that hold a manifest, each once (`Discovery.searched_pluginsIn`). Put in
order, these are the outermost plugins of the tree, and none is inside another
(`discovered_are_outermost`). A search is within reach if the manifests of the directories that it
reaches are (`Discovery.IsWithinReach`).
-/

namespace SurfaceAudit

namespace Disk

/-- A text that goes on has more bytes. -/
theorem byteCount_le_of_isPrefix {s t : Text} (h : s <+: t) : byteCount s ≤ byteCount t := by
  obtain ⟨u, rfl⟩ := h
  rw [byteCount, byteCount, List.flatMap_append, List.length_append]
  exact Nat.le_add_right ..

/-- A path at which there is a file is not too long. -/
theorem byteCount_le_of_hasFile {d : Disk} {path : Text} (h : d.hasFile path = .ok true) :
    byteCount path ≤ pathLimit := by
  obtain ⟨bytes, hread⟩ := exists_read_of_hasFile h
  unfold read locate at hread
  split at hread
  · cases hread
  by_contra hlong
  rw [if_pos (Nat.lt_of_not_le hlong)] at hread
  cases hread

/-- A file is the first one among some names, if they can be looked at and one of them is a file. -/
theorem exists_firstFile?_eq_some {d : Disk} {pathOf : Text → Text} {names : List Text}
    {name : Text} (hname : name ∈ names) (hfile : d.hasFile (pathOf name) = .ok true) :
    d.firstFile? pathOf names ≠ .ok none := by
  induction names with
  | nil => exact absurd hname List.not_mem_nil
  | cons x r ih =>
    intro h
    obtain ⟨isThere, hx, h⟩ := Attempt.bind_eq_ok_iff.mp h
    cases isThere with
    | true => cases h
    | false =>
      rcases List.mem_cons.mp hname with rfl | hr
      · cases hfile.symm.trans hx
      · exact ih hr h

end Disk

namespace Path

/-- A path that goes on starts with the names before. -/
theorem ofNames_isPrefix (ns more : List Text) : ofNames ns <+: ofNames (ns ++ more) := by
  induction ns with
  | nil => exact List.nil_prefix
  | cons n r ih =>
    cases r with
    | nil =>
      cases more with
      | nil => exact List.prefix_refl _
      | cons m more =>
        rw [ofNames_singleton, List.singleton_append, ofNames_cons_cons]
        exact List.prefix_append ..
    | cons m r =>
      rw [List.cons_append, List.cons_append, ofNames_cons_cons, ofNames_cons_cons]
      exact (List.prefix_append_right_inj n).mpr ((List.prefix_cons_inj _).mpr ih)

/-- What is below a path starts with it. -/
theorem isPrefix_below (path name : Text) : path <+: below path name := by
  unfold below
  split <;> exact List.prefix_append ..

end Path

namespace Node

/-- In a proper tree, what leads down to something are names. -/
theorem IsProper.isName {n m : Node} (h : n.IsProper) {below : List Text}
    (hm : n.at? below = some m) : ∀ name ∈ below, Path.IsName name := by
  induction below generalizing n with
  | nil => simp
  | cons name r ih =>
    obtain ⟨es, k, rfl, hk, hr⟩ := exists_directory_of_at? hm
    cases h with
    | directory names _ inner =>
      have hmem := mem_entries hk
      exact List.forall_mem_cons.mpr ⟨names _ hmem, ih (inner _ hmem) hr⟩

end Node

namespace Discovery

variable (d : Disk) (root : List Text)

/-- The directory at a path holds a manifest: there is a file in one of the places for it. -/
def HoldsManifest (path : Text) : Prop :=
  ∃ place ∈ Manifest.places, d.hasFile (Path.below path place) = .ok true

/-- A search is stopped at the directory at a path. -/
inductive StopsAt (path : Text) : Fault → Prop where
  /-- A place for the manifest cannot be looked at, although the directory is opened. -/
  | place {f : Fault} (hfits : Disk.byteCount path ≤ Disk.pathLimit)
    (h : manifestBelow d path = .error f) : StopsAt path f
  /-- The manifest has an integer with too many digits. -/
  | manifest {file : Text} {f : Fault} (h : manifestBelow d path = .ok (some file))
    (hf : nameIn? d file = .error f) : StopsAt path f

/-- A search goes on to a directory, which is some names below the one that is `here` below the root
of the search. -/
structure IsReached (here : List Text) (n : Node) (below : List Text) : Prop where
  /-- It is a directory, and so is everything on the way. -/
  directory : ∃ es, n.at? below = some (.directory es)
  /-- No name on the way is passed over. -/
  kept : ∀ name ∈ below, name ∉ skippedNames
  /-- The way is not too long. -/
  depth : (here ++ below).length ≤ depthLimit
  /-- No directory on the way holds a manifest. -/
  outermost : ∀ above, above <+: below → above ≠ below →
    ¬HoldsManifest d (pathFrom root (here ++ above))

/-- A search below a path is within reach. -/
structure IsWithinReach (d : Disk) (path : Text) : Prop where
  /-- The plain form of the path is. -/
  links : d.IsPassable path
  /-- The manifests of the directories that it reaches are not nested too deeply. -/
  manifests : ∀ root n below file bytes t, d.plainNames path = .ok root →
    d.look (Path.absolute root) = .ok (some n) → IsReached d root [] n below →
    manifestBelow d (pathFrom root below) = .ok (some file) → d.read file = .ok bytes →
    Utf8.read bytes = .ok t → Json.levels t ≤ callLimit

/-- In a tree without a text that is nested too deeply every search is within reach whose path is.
-/
theorem isWithinReach_of_root {d : Disk} {path : Text} (hlinks : d.IsPassable path)
    (hlevels : d.root.levels ≤ callLimit) : IsWithinReach d path where
  links := hlinks
  manifests _ _ _ _ _ _ _ _ _ _ hbytes ht :=
    Nat.le_trans (Disk.levels_le_of_read hbytes ht) hlevels

/-- A directory is the root of a plugin that is inside no other one. -/
structure IsRoot (n : Node) (below : List Text) : Prop extends IsReached d root [] n below where
  /-- It holds a manifest. -/
  holds : HoldsManifest d (pathFrom root below)

/-- What is found of the directories that a search reaches: each one that holds a manifest, with the
name in that. -/
structure Finds (reached : List Text → Prop) (found : List Found) : Prop where
  /-- The directories that hold a manifest are found, and no others. -/
  mem : ∀ names, names ∈ found.map (·.1) ↔
    reached names ∧ HoldsManifest d (pathFrom root names)
  /-- Each is found once. -/
  once : (found.map (·.1)).Nodup
  /-- The plugin is made of the manifest in the directory. -/
  plugin : ∀ f ∈ found, ∃ file, manifestBelow d (pathFrom root f.1) = .ok (some file) ∧
    plugin d (pathFrom root f.1) file = .ok f.2

/-- What comes of a search that reaches some directories: it finds those that hold a manifest, if it
is stopped at none of them, or else its fault is one that stops it. -/
inductive Searched (reached : List Text → Prop) : Attempt (List Found) → Prop where
  /-- The search is not stopped. -/
  | finds {found : List Found}
    (hgoes : ∀ names, reached names → ∀ f, ¬StopsAt d (pathFrom root names) f)
    (h : Finds d root reached found) : Searched reached (.ok found)
  /-- The search is stopped at one of the directories. -/
  | stops {names : List Text} {f : Fault} (hr : reached names)
    (h : StopsAt d (pathFrom root names) f) : Searched reached (.error f)

variable {d root}

section Manifests

variable {path : Text}

/-- The manifest that is found is a file in one of its places. -/
theorem holdsManifest_of_manifestBelow {file : Text} (h : manifestBelow d path = .ok (some file)) :
    HoldsManifest d path := by
  obtain ⟨before, after, hplaces, hfile, -⟩ := Disk.firstFile?_eq_some h
  have hmem : file ∈ Manifest.places.map (Path.below path) := by
    rw [hplaces]
    simp
  obtain ⟨place, hplace, rfl⟩ := List.mem_map.mp hmem
  exact ⟨place, hplace, hfile⟩

/-- Where no manifest is found there is none. -/
theorem not_holdsManifest (h : manifestBelow d path = .ok none) : ¬HoldsManifest d path := by
  rintro ⟨place, hplace, hfile⟩
  exact Disk.exists_firstFile?_eq_some (List.mem_map_of_mem hplace) hfile h

/-- A directory that holds a manifest has a path that is not too long. -/
theorem HoldsManifest.fits (h : HoldsManifest d path) :
    Disk.byteCount path ≤ Disk.pathLimit := by
  obtain ⟨place, -, hfile⟩ := h
  have hlonger := Disk.byteCount_le_of_isPrefix (Path.isPrefix_below path place)
  exact hlonger.trans (Disk.byteCount_le_of_hasFile hfile)

/-- A directory at which a search is stopped has a path that is not too long. -/
theorem StopsAt.fits {f : Fault} (h : StopsAt d path f) : Disk.byteCount path ≤ Disk.pathLimit := by
  cases h with
  | place hfits _ => exact hfits
  | manifest h _ => exact (holdsManifest_of_manifestBelow h).fits

/-- Nothing stops a search where there is no manifest. -/
theorem not_stopsAt (h : manifestBelow d path = .ok none) (f : Fault) : ¬StopsAt d path f := by
  rintro (⟨-, hf⟩ | ⟨hfile, -⟩)
  · cases h.symm.trans hf
  · cases h.symm.trans hfile

/-- A plugin is at the path where its manifest was found. -/
theorem path_of_plugin {file : Text} {p : DiscoveredPlugin} (h : plugin d path file = .ok p) :
    p.path = path := by
  obtain ⟨name?, -, rfl⟩ := Attempt.map_eq_ok_iff.mp h
  rfl

end Manifests

/-- A path below the root of a search starts with each path before it. -/
theorem byteCount_pathFrom_le (names more : List Text) :
    Disk.byteCount (pathFrom root names) ≤ Disk.byteCount (pathFrom root (names ++ more)) := by
  refine Disk.byteCount_le_of_isPrefix ((List.prefix_cons_inj _).mpr ?_)
  rw [← List.append_assoc]
  exact Path.ofNames_isPrefix ..

namespace IsReached

variable {here below : List Text} {n : Node} {es : List (Text × Node)}

/-- A search reaches the directory where it is, if the way to it is not too long. -/
theorem self (h : here.length ≤ depthLimit) : IsReached d root here (.directory es) [] where
  directory := ⟨es, rfl⟩
  kept := by simp
  depth := by simpa using h
  outermost above ha hne := absurd (List.prefix_nil.mp ha) hne

/-- Below a directory that holds a manifest, a search reaches nothing. -/
theorem eq_nil_of_holds (h : IsReached d root here n below)
    (hm : HoldsManifest d (pathFrom root here)) : below = [] := by
  by_contra hne
  refine h.outermost [] List.nil_prefix (Ne.symm hne) ?_
  rwa [List.append_nil]

/-- A search reaches a directory by way of an entry, if there is no manifest before it. -/
theorem cons_iff {name : Text} {r : List Text} :
    IsReached d root here n (name :: r) ↔
      ¬HoldsManifest d (pathFrom root here) ∧ name ∉ skippedNames ∧
        ∃ m, n.entry? name = some m ∧ IsReached d root (here ++ [name]) m r := by
  have hhere (above : List Text) : here ++ name :: above = here ++ [name] ++ above := by simp
  constructor
  · intro h
    obtain ⟨es, hes⟩ := h.directory
    obtain ⟨m, hm, hr⟩ := Option.bind_eq_some_iff.mp hes
    obtain ⟨hname, hkept⟩ := List.forall_mem_cons.mp h.kept
    refine ⟨?_, hname, m, hm, ⟨es, hr⟩, hkept, hhere r ▸ h.depth, fun above ha hne => ?_⟩
    · simpa using h.outermost [] List.nil_prefix (List.cons_ne_nil name r).symm
    · rw [← hhere]
      exact h.outermost _ ((List.prefix_cons_inj name).mpr ha) (by simpa using hne)
  · rintro ⟨hnone, hname, m, hm, h⟩
    obtain ⟨es, hes⟩ := h.directory
    refine ⟨⟨es, Option.bind_eq_some_iff.mpr ⟨m, hm, hes⟩⟩,
      List.forall_mem_cons.mpr ⟨hname, h.kept⟩, hhere r ▸ h.depth, fun above ha hne => ?_⟩
    -- A manifest before the directory is in this one or further down, where the search begins anew.
    cases above with
    | nil => rwa [List.append_nil]
    | cons x above =>
      obtain ⟨rfl, hr⟩ := List.cons_prefix_cons.mp ha
      rw [hhere]
      exact h.outermost above hr (by simpa using hne)

end IsReached

namespace Searched

variable {reached reached' : List Text → Prop} {x y : Attempt (List Found)}

/-- What is said of a search depends on the directories that it reaches, however they are told. -/
theorem congr (h : Searched d root reached x) (heq : ∀ names, reached' names ↔ reached names) :
    Searched d root reached' x := by
  cases funext fun names => propext (heq names)
  exact h

/-- Where all paths are too long there is nothing to find, and nothing stops the search. -/
theorem ofLong
    (h : ∀ names, reached names → Disk.pathLimit < Disk.byteCount (pathFrom root names)) :
    Searched d root reached (.ok []) := by
  have hgoes (names : List Text) (hr : reached names) (f : Fault) :
      ¬StopsAt d (pathFrom root names) f := fun hf => (h names hr).not_ge hf.fits
  refine .finds hgoes ⟨fun names => ?_, by simp, by simp⟩
  constructor
  · intro hnames
    exact absurd hnames List.not_mem_nil
  · rintro ⟨hr, hm⟩
    exact absurd hm.fits (h names hr).not_ge

/-- Where nothing is reached there is nothing to find. -/
theorem ofNone (h : ∀ names, ¬reached names) : Searched d root reached (.ok []) :=
  .ofLong fun names hr => absurd hr (h names)

/-- A search of one part and then of another one reaches what is reached in both. -/
theorem append (hx : Searched d root reached x) (hy : Searched d root reached' y)
    (hdisjoint : ∀ names, reached names → ¬reached' names) :
    Searched d root (fun names => reached names ∨ reached' names)
      (x >>= fun found => y >>= fun found' => .ok (found ++ found')) := by
  cases hx with
  | stops hr h => exact .stops (.inl hr) h
  | @finds found hgoes h =>
    cases hy with
    | stops hr' h' => exact .stops (.inr hr') h'
    | @finds found' hgoes' h' =>
      refine .finds (fun names hr => hr.elim (hgoes names) (hgoes' names)) ⟨fun names => ?_, ?_, ?_⟩
      · rw [List.map_append, List.mem_append, h.mem, h'.mem, or_and_right]
      · rw [List.map_append]
        refine h.once.append h'.once fun names hn hn' => ?_
        exact hdisjoint names ((h.mem names).mp hn).1 ((h'.mem names).mp hn').1
      · exact List.forall_mem_append.mpr ⟨h.plugin, h'.plugin⟩

/-- Where the search is there is nothing to find, if there is no manifest, and nothing stops it. -/
theorem addHere {here : List Text} (h : Searched d root reached x)
    (hm : manifestBelow d (pathFrom root here) = .ok none) :
    Searched d root (fun names => names = here ∨ reached names) x := by
  cases h with
  | stops hr h => exact .stops (.inr hr) h
  | finds hgoes h =>
    refine .finds ?_ ⟨fun names => ?_, h.once, h.plugin⟩
    · rintro names (rfl | hr) f
      · exact not_stopsAt hm f
      · exact hgoes names hr f
    · rw [h.mem]
      constructor
      · exact fun ⟨hr, hholds⟩ => ⟨.inr hr, hholds⟩
      · rintro ⟨rfl | hr, hholds⟩
        · exact absurd hholds (not_holdsManifest hm)
        · exact ⟨hr, hholds⟩

/-- Where the search is there is a plugin to find, if there is a manifest with a name that is not at
fault. -/
theorem ofManifest {here : List Text} {file : Text}
    (hm : manifestBelow d (pathFrom root here) = .ok (some file)) :
    Searched d root (· = here)
      ((plugin d (pathFrom root here) file).map fun p => [(here, p)]) := by
  cases hp : plugin d (pathFrom root here) file with
  | error f => exact .stops rfl (.manifest hm (Attempt.map_eq_error_iff.mp hp))
  | ok p =>
    refine .finds ?_ ⟨fun names => ?_, List.nodup_singleton _,
      List.forall_mem_singleton.mpr ⟨file, hm, hp⟩⟩
    · rintro names rfl f (⟨-, hf⟩ | ⟨hfile, hf⟩)
      · cases hm.symm.trans hf
      · cases hm.symm.trans hfile
        cases hp.symm.trans (Attempt.map_eq_error_iff.mpr hf)
    · have hholds := holdsManifest_of_manifestBelow hm
      rw [List.map_cons, List.map_nil, List.mem_singleton]
      exact ⟨fun h => ⟨h, h ▸ hholds⟩, fun h => h.1⟩

end Searched

/-- A directory that is reached among entries of one that is `here` below the root. -/
def AmongReached (d : Disk) (root here : List Text) (es : List (Text × Node)) (names : List Text) :
    Prop :=
  ∃ e ∈ es, e.1 ∉ skippedNames ∧
    ∃ below, names = here ++ e.1 :: below ∧ IsReached d root (here ++ [e.1]) e.2 below

/-- A search among entries goes through the first one, unless its name is passed over, and then
through the others. -/
theorem pluginsAmong_cons (here : List Text) (name : Text) (n : Node) (r : List (Text × Node)) :
    pluginsAmong d root here ((name, n) :: r) =
      (if skippedNames.contains name then .ok [] else pluginsIn d root (here ++ [name]) n) >>=
        fun found => pluginsAmong d root here r >>= fun found' => .ok (found ++ found') := by
  rw [pluginsAmong]
  split <;> rfl

/-- A search in a directory finds the plugin there, or else goes on to its entries. -/
theorem pluginsIn_directory (here : List Text) (es : List (Text × Node)) :
    pluginsIn d root here (.directory es) =
      if Disk.pathLimit < Disk.byteCount (pathFrom root here) ∨ depthLimit < here.length then .ok []
      else manifestBelow d (pathFrom root here) >>= fun
        | some file => (plugin d (pathFrom root here) file).map fun p => [(here, p)]
        | none => pluginsAmong d root here es := by
  rw [pluginsIn]
  simp only [Bool.or_eq_true, decide_eq_true_eq]
  rfl

/-- A search among entries reaches what is reached in each of them. -/
theorem searched_pluginsAmong {here : List Text} {es : List (Text × Node)}
    (once : (es.map (·.1)).Nodup)
    (hinner : ∀ e ∈ es, Searched d root
      (fun names => ∃ below, names = here ++ [e.1] ++ below ∧
        IsReached d root (here ++ [e.1]) e.2 below) (pluginsIn d root (here ++ [e.1]) e.2)) :
    Searched d root (AmongReached d root here es) (pluginsAmong d root here es) := by
  induction es with
  | nil => exact .ofNone fun names ⟨e, he, _⟩ => absurd he List.not_mem_nil
  | cons e r ih =>
    obtain ⟨name, n⟩ := e
    obtain ⟨hself, hrest⟩ := List.forall_mem_cons.mp hinner
    obtain ⟨hnew, once⟩ := List.nodup_cons.mp once
    have hhere : Searched d root (fun names => name ∉ skippedNames ∧
        ∃ below, names = here ++ name :: below ∧ IsReached d root (here ++ [name]) n below)
        (if skippedNames.contains name then .ok []
          else pluginsIn d root (here ++ [name]) n) := by
      by_cases hskipped : name ∈ skippedNames
      · rw [if_pos (List.contains_iff_mem.mpr hskipped)]
        exact .ofNone fun names h => h.1 hskipped
      · rw [if_neg (mt List.contains_iff_mem.mp hskipped)]
        exact hself.congr fun names => by simp [hskipped]
    rw [pluginsAmong_cons]
    refine (hhere.append (ih once hrest) ?_).congr fun names => ?_
    · -- The names part at the entries, which have different names.
      rintro names ⟨-, below, rfl, -⟩ ⟨e, he, -, below', heq, -⟩
      obtain ⟨rfl, -⟩ := List.cons.inj (List.append_cancel_left heq)
      exact hnew (List.mem_map.mpr ⟨e, he, rfl⟩)
    · unfold AmongReached
      rw [List.exists_mem_cons_iff]

/-- A search reaches nothing in what is no directory. -/
theorem not_isReached {here below : List Text} {n : Node} (hn : ∀ es, n ≠ .directory es) :
    ¬IsReached d root here n below := by
  intro h
  obtain ⟨es, hes⟩ := h.directory
  cases below with
  | nil => exact hn es (Option.some.inj hes)
  | cons name r =>
    obtain ⟨ks, -, hk, -⟩ := Node.exists_directory_of_at? hes
    exact hn ks hk

/-- A search of a tree reaches its directories, as far as it goes on to them. -/
theorem searched_pluginsIn {n : Node} (hn : n.IsProper) (here : List Text) :
    Searched d root (fun names => ∃ below, names = here ++ below ∧ IsReached d root here n below)
      (pluginsIn d root here n) := by
  induction hn generalizing here with
  | file content => exact .ofNone fun names ⟨below, _, h⟩ => not_isReached (by simp) h
  | link target => exact .ofNone fun names ⟨below, _, h⟩ => not_isReached (by simp) h
  | @directory es _ once _ ih =>
    rw [pluginsIn_directory]
    by_cases hlong : Disk.pathLimit < Disk.byteCount (pathFrom root here)
    · rw [if_pos (.inl hlong)]
      refine .ofLong ?_
      rintro names ⟨below, rfl, -⟩
      exact hlong.trans_le (byteCount_pathFrom_le ..)
    by_cases hdeep : depthLimit < here.length
    · rw [if_pos (.inr hdeep)]
      refine .ofNone ?_
      rintro names ⟨below, -, h⟩
      have hdepth := h.depth
      rw [List.length_append] at hdepth
      omega
    rw [if_neg (not_or.mpr ⟨hlong, hdeep⟩)]
    have hself : IsReached d root here (.directory es) [] := .self (Nat.le_of_not_lt hdeep)
    have hhere : ∃ below, here = here ++ below ∧ IsReached d root here (.directory es) below :=
      ⟨[], by simp, hself⟩
    cases hm : manifestBelow d (pathFrom root here) with
    | error f => exact .stops hhere (.place (Nat.le_of_not_lt hlong) hm)
    | ok file? =>
    cases file? with
    | some file =>
      have hholds := holdsManifest_of_manifestBelow hm
      -- The manifest keeps the search from going on, so that nothing else is reached.
      have honly (names : List Text) : (∃ below, names = here ++ below ∧
          IsReached d root here (.directory es) below) ↔ names = here := by
        constructor
        · rintro ⟨below, rfl, h⟩
          rw [h.eq_nil_of_holds hholds, List.append_nil]
        · rintro rfl
          exact hhere
      exact (Searched.ofManifest hm).congr honly
    | none =>
      have hnone := not_holdsManifest hm
      have hamong := searched_pluginsAmong once fun e he => ih e he (here ++ [e.1])
      refine (hamong.addHere hm).congr fun names => ?_
      constructor
      · rintro ⟨below, rfl, h⟩
        cases below with
        | nil => exact .inl (List.append_nil here)
        | cons name r =>
          obtain ⟨-, hname, m, hm, hr⟩ := IsReached.cons_iff.mp h
          exact .inr ⟨(name, m), Node.mem_entries hm, hname, r, rfl, hr⟩
      · rintro (rfl | ⟨e, he, hname, below, rfl, h⟩)
        · exact hhere
        · exact ⟨e.1 :: below, rfl,
            IsReached.cons_iff.mpr ⟨hnone, hname, e.2, Node.entry?_of_mem once he, h⟩⟩

/-- The names of a directory are read back from the text by which it is put in order. -/
theorem names_orderKey {below : List Text} (h : ∀ name ∈ below, Path.IsName name) :
    Path.names (orderKey below) = below := by
  unfold orderKey
  cases below with
  | nil => rfl
  | cons name r =>
    rw [if_neg (by simp), Path.names_ofNames, Path.flatMap_names h]

/-- Plugins that are found, each once, are in strict order after they are put in order. -/
theorem pairwise_sort {found : List Found} (once : (found.map (·.1)).Nodup)
    (hnames : ∀ below ∈ found.map (·.1), ∀ name ∈ below, Path.IsName name) :
    ((Rank.sort (fun a b => Text.le (orderKey a.1) (orderKey b.1)) found).map (·.1)).Pairwise
      fun a b => Text.Lt (orderKey a) (orderKey b) := by
  have htotal : Std.Total fun a b : Found => Text.Le (orderKey a.1) (orderKey b.1) :=
    ⟨fun a b => Text.le_total _ _⟩
  have htrans : IsTrans Found fun a b => Text.Le (orderKey a.1) (orderKey b.1) :=
    ⟨fun _ _ _ => Text.le_trans⟩
  rw [Rank.sort_eq, List.pairwise_map]
  have hle := List.pairwise_insertionSort
    (fun a b : Found => Text.Le (orderKey a.1) (orderKey b.1)) found
  have hperm := List.perm_insertionSort
    (fun a b : Found => Text.Le (orderKey a.1) (orderKey b.1)) found
  -- Different directories have different texts, since the names can be read back.
  have hne : (found.insertionSort fun a b : Found => Text.Le (orderKey a.1) (orderKey b.1)).Pairwise
      fun a b => orderKey a.1 ≠ orderKey b.1 := by
    have honce := List.pairwise_map.mp ((hperm.map (·.1)).nodup_iff.mpr once)
    refine honce.imp_of_mem fun {a b} ha hb hab heq => hab ?_
    have hread {f : Found} (hf : f ∈ found.insertionSort fun a b : Found =>
        Text.Le (orderKey a.1) (orderKey b.1)) : Path.names (orderKey f.1) = f.1 :=
      names_orderKey (hnames f.1 (List.mem_map_of_mem (hperm.mem_iff.mp hf)))
    rw [← hread ha, ← hread hb, heq]
  exact hle.and hne

/-- A root of a plugin is not inside another one. -/
theorem IsRoot.eq_of_isPrefix {n : Node} {a b : List Text} (ha : IsRoot d root n a)
    (hb : IsRoot d root n b) (h : a <+: b) : a = b := by
  by_contra hne
  exact hb.outermost a h hne ha.holds

/-- A search below a path is one of the tree at its plain form. -/
theorem plugins_eq {path : Text} {n : Node} (hroot : d.plainNames path = .ok root)
    (hn : d.look (Path.absolute root) = .ok (some n)) :
    plugins d path = (pluginsIn d root [] n).map inOrder := by
  unfold plugins
  rw [hroot]
  change d.look (Path.absolute root) >>= _ = _
  rw [hn]
  rfl

/-- A search from the root of a tree is one of the directories that it reaches. -/
theorem searched_root (d : Disk) (root : List Text) {n : Node} (hproper : n.IsProper) :
    Searched d root (IsReached d root [] n) (pluginsIn d root [] n) :=
  (searched_pluginsIn hproper []).congr fun names => by simp

/-- A search below a path ends exactly if it is stopped at no directory that it reaches. -/
theorem exists_plugins_iff {path : Text} {n : Node} (hroot : d.plainNames path = .ok root)
    (hn : d.look (Path.absolute root) = .ok (some n)) (hproper : n.IsProper) :
    (∃ ps, plugins d path = .ok ps) ↔
      ∀ below, IsReached d root [] n below → ∀ f, ¬StopsAt d (pathFrom root below) f := by
  have hsearched := searched_root d root hproper
  rw [plugins_eq hroot hn]
  generalize pluginsIn d root [] n = outcome at hsearched ⊢
  cases hsearched with
  | stops hr h => exact ⟨fun ⟨ps, hps⟩ => (nomatch hps), fun hgoes => absurd h (hgoes _ hr _)⟩
  | finds hgoes _ => exact ⟨fun _ => hgoes, fun _ => ⟨_, rfl⟩⟩

end Discovery

open Discovery

/-- A search below a path, if it is within reach and nothing is in its way at the directories that
it reaches, comes to an end. A search that does gives the plugins whose roots are inside no other
one, in strict order of their paths, and none of them is inside another. -/
theorem discovered_are_outermost {d : Disk} {path : Text} {root : List Text} {n : Node}
    (hroot : d.plainNames path = .ok root) (hn : d.look (Path.absolute root) = .ok (some n))
    (hproper : d.root.IsProper) :
    (IsWithinReach d path →
      (∀ below, IsReached d root [] n below → ∀ f, ¬StopsAt d (pathFrom root below) f) →
      ∃ ps, plugins d path = .ok ps) ∧
    ∀ ps, plugins d path = .ok ps →
      ∃ found : List (List Text), ps.map (·.path) = found.map (pathFrom root) ∧
        found.Pairwise (fun a b => Text.Lt (orderKey a) (orderKey b)) ∧
        (∀ below, below ∈ found ↔ IsRoot d root n below) ∧
        ∀ a ∈ found, ∀ b ∈ found, a <+: b → a = b := by
  have hnode : n.IsProper := Disk.isProper_of_find? hproper (Disk.find?_of_look hn)
  refine ⟨fun _ => (exists_plugins_iff hroot hn hnode).mpr, fun ps hps => ?_⟩
  have hsearched := searched_root d root hnode
  rw [plugins_eq hroot hn] at hps
  obtain ⟨found, hfound, rfl⟩ := Attempt.map_eq_ok_iff.mp hps
  rw [hfound] at hsearched
  cases hsearched with
  | @finds found _ h =>
    -- The search finds the roots in the order of the tree, and only then are they put in order of
    -- their paths.
    let sorted := Rank.sort (fun a b => Text.le (orderKey a.1) (orderKey b.1)) found
    have hperm : sorted.Perm found := Rank.perm_sort _ found
    have hmem (below : List Text) : below ∈ sorted.map (·.1) ↔ IsRoot d root n below := by
      rw [(hperm.map (·.1)).mem_iff, h.mem]
      exact ⟨fun ⟨hr, hm⟩ => ⟨hr, hm⟩, fun hr => ⟨hr.toIsReached, hr.holds⟩⟩
    have hnames : ∀ below ∈ found.map (·.1), ∀ name ∈ below, Path.IsName name := by
      intro below hbelow
      obtain ⟨es, hes⟩ := ((h.mem below).mp hbelow).1.directory
      exact hnode.isName hes
    refine ⟨sorted.map (·.1), ?_, pairwise_sort h.once hnames, hmem, fun a ha b hb hab => ?_⟩
    · rw [inOrder, List.map_map, List.map_map]
      refine List.map_congr_left fun f hf => ?_
      obtain ⟨file, -, hplugin⟩ := h.plugin f (hperm.mem_iff.mp hf)
      exact path_of_plugin hplugin
    · exact ((hmem a).mp ha).eq_of_isPrefix ((hmem b).mp hb) hab

/-- A tree with a plugin that has another one inside, a link to it, a plugin in a directory that is
passed over, and a plugin without a name. -/
def shop : Node := .directory [
  ("a", .directory [
    ("b", .directory [("plugin.json", .file "\x7b\"name\":\"inner\"\x7d".toUTF8.toList)]),
    ("plugin.json", .file "\x7b\"name\":\"outer\"\x7d".toUTF8.toList)]),
  ("c", .link "a"),
  ("dist", .directory [("plugin.json", .file "\x7b\"name\":\"built\"\x7d".toUTF8.toList)]),
  ("e", .directory [(".claude-plugin", .directory [("plugin.json", .file "[]".toUTF8.toList)])])]

/-- A disk with the tree. -/
def street : Disk where
  root := .directory [("m", shop)]
  current := []

/-- Of the plugins of the tree, the outer one and the one without a name are found. -/
theorem discovered_are_outermost_shop : street.plainNames "/m" = .ok ["m"] ∧
    street.look (Path.absolute ["m"]) = .ok (some shop) ∧ street.root.IsProper ∧
    IsWithinReach street "/m" ∧
    (∀ below, IsReached street ["m"] [] shop below →
      ∀ f, ¬StopsAt street (pathFrom ["m"] below) f) ∧
    plugins street "/m" = .ok [⟨"/m/a", "outer"⟩, ⟨"/m/e", "e"⟩] ∧
    ∃ found : List (List Text), found.map (pathFrom ["m"]) = (["/m/a", "/m/e"] : List Text) ∧
      ∀ below, below ∈ found ↔ IsRoot street ["m"] shop below := by
  have hroot : street.plainNames "/m" = .ok ["m"] := by decide +kernel
  have hn : street.look (Path.absolute ["m"]) = .ok (some shop) := rfl
  have hproper : street.root.IsProper := by decide +kernel
  have hps : plugins street "/m" = .ok [⟨"/m/a", "outer"⟩, ⟨"/m/e", "e"⟩] := by decide +kernel
  have hreach : IsWithinReach street "/m" :=
    isWithinReach_of_root (by decide +kernel) (by decide +kernel)
  have hgoes := (exists_plugins_iff hroot hn
    (Disk.isProper_of_find? hproper (Disk.find?_of_look hn))).mp ⟨_, hps⟩
  obtain ⟨hends, hfinds⟩ := discovered_are_outermost hroot hn hproper
  obtain ⟨ps, hps'⟩ := hends hreach hgoes
  cases hps.symm.trans hps'
  obtain ⟨found, hpaths, -, hmem, -⟩ := hfinds _ hps'
  exact ⟨hroot, hn, hproper, hreach, hgoes, hps, found, hpaths.symm, hmem⟩

/-- A tree with a link to a name that is too long, where a manifest could be. -/
def overlong : Disk where
  root := .directory [("p", .directory [("plugin.json", .link (List.replicate 300 (.scalar 'a')))])]
  current := []

/-- There is no manifest in the tree, so that none can be at fault, and yet the search does not end.
-/
theorem overlong_link_stops : overlong.root.IsProper ∧ overlong.plainNames "/" = .ok [] ∧
    overlong.hasDirectory "/" = .ok true ∧
    (∀ path ∈ (["/", "/p"] : List Text), ∀ place ∈ Manifest.places,
      overlong.find? (Path.below path place) = none) ∧
    plugins overlong "/" = .error (.file .nameTooLong "/p/plugin.json") := by
  refine ⟨by decide +kernel, by decide +kernel, by decide +kernel, ?_, by decide +kernel⟩
  simp only [← Option.isNone_iff_eq_none]
  decide +kernel

end SurfaceAudit
