import Mathlib.Data.List.Lex
import SurfaceAudit.Proofs.Arrangement
import SurfaceAudit.Proofs.Merging
import SurfaceAudit.Proofs.Reach

/-!
# Which files are listed and what is noted

In a tree whose directories have their entries in order (`Node.IsOrdered`, which `Node.put` keeps),
a walk finds exactly the files to which real directories lead that are entered
(`Listing.mem_files_walk_iff`). What it passes over with a note comes in the order of the walk
(`Listing.Omission.Before`): a directory before the directories in it, and in one directory first
directories and then links, by name (`Listing.exists_omissions`). So the files of a plugin are
listed exactly, and so are the notes on what is left out, if the manifest can be looked for and the
walk is within reach (`files_listed_exactly`).
-/

namespace SurfaceAudit

namespace Text

/-- The order of paths is transitive. -/
theorem Lt.trans {s t u : Text} (hst : Lt s t) (htu : Lt t u) : Lt s u := by
  refine ⟨le_trans hst.1 htu.1, ?_⟩
  rintro rfl
  exact hst.2 (le_antisymm hst.1 htu.1)

/-- A text that is not before another one or equal to it comes after it. -/
theorem lt_of_not_le {s t : Text} (h : ¬le s t = true) : Lt t s := by
  refine ⟨(le_total s t).resolve_left h, ?_⟩
  rintro rfl
  exact h (le_refl t)

end Text

/-- A text is one of some values that are texts exactly if it is one of the texts. -/
theorem Value.any_isText_iff {ts : List Text} {t : Text} :
    (ts.map Value.text).any (·.isText t) = true ↔ t ∈ ts := by
  rw [List.any_map, List.any_eq_true]
  constructor
  · rintro ⟨u, hu, heq⟩
    have htext : Value.text u = Value.text t := isText_iff.mp heq
    cases htext
    exact hu
  · intro h
    exact ⟨t, h, isText_iff.mpr rfl⟩

namespace Node

/-- Every directory of the tree has names for its entries, which stand in the order of these, and
each name once. -/
inductive IsOrdered : Node → Prop where
  /-- A file. -/
  | file (content : List UInt8) : IsOrdered (.file content)
  /-- A link. -/
  | link (target : Text) : IsOrdered (.link target)
  /-- A directory. -/
  | directory {es : List (Text × Node)} (names : ∀ e ∈ es, Path.IsName e.1)
    (ordered : (es.map (·.1)).Pairwise Text.Lt) (inner : ∀ e ∈ es, IsOrdered e.2) :
    IsOrdered (.directory es)

/-- A tree in order has each name once in a directory. -/
theorem IsOrdered.isProper {n : Node} (h : n.IsOrdered) : n.IsProper := by
  induction h with
  | file content => exact .file content
  | link target => exact .link target
  | directory names ordered _ ih => exact .directory names (ordered.imp fun hlt => hlt.2) ih

/-- What is in a tree in order is in order. -/
theorem IsOrdered.at? {n m : Node} {q : List Text} (h : n.IsOrdered) (hm : n.at? q = some m) :
    m.IsOrdered := by
  induction q generalizing n with
  | nil =>
    cases hm
    exact h
  | cons name r ih =>
    obtain ⟨es, k, rfl, hk, hr⟩ := exists_directory_of_at? hm
    cases h with
    | directory _ _ inner => exact ih (inner _ (mem_entries hk)) hr

section Put

variable {name : Text} {n : Node} {es : List (Text × Node)}

/-- An entry that is set is the only new one. -/
theorem mem_putEntry {e : Text × Node} (h : e ∈ putEntry name n es) : e = (name, n) ∨ e ∈ es := by
  induction es with
  | nil => exact .inl (List.mem_singleton.mp h)
  | cons f r ih =>
    rw [putEntry] at h
    split at h
    · exact (List.mem_cons.mp h).imp_right (List.mem_cons_of_mem f)
    · split at h
      · exact List.mem_cons.mp h
      · rcases List.mem_cons.mp h with rfl | h
        · exact .inr List.mem_cons_self
        · exact (ih h).imp_right (List.mem_cons_of_mem f)

/-- An entry that is set takes its place in the order. -/
theorem pairwise_putEntry (h : (es.map (·.1)).Pairwise Text.Lt) :
    ((putEntry name n es).map (·.1)).Pairwise Text.Lt := by
  induction es with
  | nil => exact List.pairwise_singleton _ _
  | cons f r ih =>
    obtain ⟨hf, hr⟩ := List.pairwise_cons.mp h
    rw [putEntry]
    split
    · rename_i heq
      have hname : f.1 = name := eq_of_beq heq
      exact List.pairwise_cons.mpr ⟨hname ▸ hf, hr⟩
    · rename_i hne
      split
      · -- The name is before the first entry, and so before all others.
        rename_i hle
        have hlt : Text.Lt name f.1 := ⟨hle, fun heq => hne (by simp [heq])⟩
        refine List.pairwise_cons.mpr ⟨?_, h⟩
        intro x hx
        rcases List.mem_cons.mp hx with rfl | hx
        · exact hlt
        · exact hlt.trans (hf x hx)
      · rename_i hle
        refine List.pairwise_cons.mpr ⟨?_, ih hr⟩
        intro x hx
        obtain ⟨e, he, rfl⟩ := List.mem_map.mp hx
        rcases mem_putEntry he with rfl | he
        · exact Text.lt_of_not_le hle
        · exact hf _ (List.mem_map_of_mem he)

end Put

/-- A tree in order stays so if a node in order is put some names down. -/
theorem IsOrdered.put {n root : Node} (hn : n.IsOrdered) (hroot : root.IsOrdered)
    {place : List Text} (hplace : ∀ name ∈ place, Path.IsName name) :
    (put n place root).IsOrdered := by
  induction place generalizing root with
  | nil => exact hn
  | cons name r ih =>
    obtain ⟨hname, hr⟩ := List.forall_mem_cons.mp hplace
    cases hroot with
    | file content => exact .file content
    | link target => exact .link target
    | @directory es names ordered inner =>
      -- What is under the name is the entry that was there, or an empty directory.
      have hunder : (((es.find? (·.1 == name)).map (·.2)).getD (Node.directory [])).IsOrdered := by
        cases hfind : es.find? (·.1 == name) with
        | none => exact .directory (by simp) .nil (by simp)
        | some e => exact inner e (List.mem_of_find?_eq_some hfind)
      have hset := ih hunder hr
      rw [Node.put]
      refine .directory ?_ (pairwise_putEntry ordered) ?_ <;> intro e he
      · rcases mem_putEntry he with rfl | he
        · exact hname
        · exact names e he
      · rcases mem_putEntry he with rfl | he
        · exact hset
        · exact inner e he

/-- A tree that is made of nodes in order, put into an empty directory one after the other, is in
order. -/
theorem isOrdered_foldr_put {es : List (List Text × Node)}
    (h : ∀ e ∈ es, e.2.IsOrdered ∧ ∀ name ∈ e.1, Path.IsName name) :
    (es.foldr (fun e root => put e.2 e.1 root) (.directory [])).IsOrdered := by
  induction es with
  | nil => exact .directory (by simp) .nil (by simp)
  | cons e r ih =>
    obtain ⟨⟨hn, hnames⟩, hr⟩ := List.forall_mem_cons.mp h
    exact hn.put (ih hr) hnames

end Node

namespace Listing

/-- Something that a walk passes over with a note, by the directory that the walk is in. -/
structure Omission where
  /-- The names that lead to the directory. -/
  here : List Text
  /-- It is a link, and no directory. -/
  isLink : Bool
  /-- Its name in the directory. -/
  name : Text
  deriving DecidableEq

namespace Omission

/-- The note on what is passed over. -/
def note (o : Omission) : Note :=
  if o.isLink then .link (pathIn o.here o.name) else .directory (pathIn o.here o.name)

/-- The order of a walk. A directory is looked at before the directories in it, and these are
entered by name. In one directory come directories and then links, each by name. -/
inductive Before : Omission → Omission → Prop where
  /-- The directory is looked at before the other one. -/
  | directory {o o' : Omission} (h : List.Lex Text.Lt o.here o'.here) : Before o o'
  /-- A directory comes before a link. -/
  | kind {here : List Text} (name name' : Text) :
    Before ⟨here, false, name⟩ ⟨here, true, name'⟩
  /-- The name comes before the other one. -/
  | name {here : List Text} (isLink : Bool) {name name' : Text} (h : Text.Lt name name') :
    Before ⟨here, isLink, name⟩ ⟨here, isLink, name'⟩

/-- Nothing comes before itself in a walk, so that nothing is noted twice. -/
theorem Before.ne {o o' : Omission} (h : Before o o') : o ≠ o' := by
  have hself (here : List Text) : ¬List.Lex Text.Lt here here := by
    intro hlex
    induction here with
    | nil => cases hlex
    | cons x r ih =>
      cases hlex with
      | cons h => exact ih h
      | rel h => exact h.2 rfl
  rintro rfl
  cases h with
  | directory h => exact hself _ h
  | name _ h => exact h.2 rfl

end Omission

/-- What a walk passes over with a note in a tree that is at a place, as a relation: no name on the
way there is passed over. A directory is noted if its name is to be skipped, unless it is that of
the directory of the manifest, and a link is noted unless it leads to a directory. -/
inductive Omits (g : Guide) (n : Node) (here : List Text) : Omission → Prop where
  /-- A directory with a name that is to be skipped. -/
  | directory {below : List Text} {name : Text} {es : List (Text × Node)}
    (way : ∀ x ∈ below, g.enters x = true) (h : n.at? (below ++ [name]) = some (.directory es))
    (hname : name ≠ Manifest.directoryName) (hskip : g.isSkipped name = true) :
    Omits g n here ⟨here ++ below, false, name⟩
  /-- A link that does not lead to a directory. -/
  | link {below : List Text} {name target : Text} (way : ∀ x ∈ below, g.enters x = true)
    (h : n.at? (below ++ [name]) = some (.link target))
    (hleads : g.leadsToDirectory (here ++ below) target = false) :
    Omits g n here ⟨here ++ below, true, name⟩

section Walks

variable (g : Guide) (here : List Text) {es : List (Text × Node)} {o : Omission}

/-- The directory of entries that is passed over with a note. -/
def skippedDirectory? (e : Text × Node) : Option Omission :=
  match e.2 with
  | .directory _ =>
    if e.1 != Manifest.directoryName && g.isSkipped e.1 then some ⟨here, false, e.1⟩ else none
  | _ => none

/-- The link among entries that is passed over with a note. -/
def skippedLink? (e : Text × Node) : Option Omission :=
  match e.2 with
  | .link target => if g.leadsToDirectory here target then none else some ⟨here, true, e.1⟩
  | _ => none

/-- What is passed over in a directory itself. -/
def ownOmissions (es : List (Text × Node)) : List Omission :=
  es.filterMap (skippedDirectory? g here) ++ es.filterMap (skippedLink? g here)

variable {g here}

/-- A directory is passed over, and its omission is noted, exactly if its name is skipped and it is
not that of the manifests. -/
theorem skippedDirectory?_eq_some_iff {e : Text × Node} : skippedDirectory? g here e = some o ↔
    o = ⟨here, false, e.1⟩ ∧ (∃ ks, e.2 = .directory ks) ∧ e.1 ≠ Manifest.directoryName ∧
      g.isSkipped e.1 = true := by
  obtain ⟨name, n⟩ := e
  have hguard : (name != Manifest.directoryName && g.isSkipped name) = true ↔
      name ≠ Manifest.directoryName ∧ g.isSkipped name = true := by
    rw [Bool.and_eq_true, bne_iff_ne]
  constructor
  · intro h
    cases n with
    | file content => cases h
    | link target => cases h
    | directory ks =>
      rw [skippedDirectory?] at h
      dsimp only at h
      split at h
      · rename_i hcond
        cases h
        exact ⟨rfl, ⟨ks, rfl⟩, hguard.mp hcond⟩
      · cases h
  · rintro ⟨rfl, ⟨ks, hk⟩, hcond⟩
    rw [skippedDirectory?, hk]
    exact if_pos (hguard.mpr hcond)

/-- A link is passed over, and its omission is noted, exactly if it leads to no directory. -/
theorem skippedLink?_eq_some_iff {e : Text × Node} : skippedLink? g here e = some o ↔
    o = ⟨here, true, e.1⟩ ∧
      ∃ target, e.2 = .link target ∧ g.leadsToDirectory here target = false := by
  obtain ⟨name, n⟩ := e
  constructor
  · intro h
    cases n with
    | file content => cases h
    | directory ks => cases h
    | link target =>
      rw [skippedLink?] at h
      dsimp only at h
      split at h
      · cases h
      · rename_i hleads
        cases h
        exact ⟨rfl, target, rfl, eq_false_of_ne_true hleads⟩
  · rintro ⟨rfl, target, hn, hleads⟩
    rw [skippedLink?, hn]
    exact if_neg (ne_true_of_eq_false hleads)

/-- A directory among entries is noted if it is passed over. -/
theorem directoryNote?_eq (g : Guide) (here : List Text) (e : Text × Node) :
    directoryNote? g here e = (skippedDirectory? g here e).map Omission.note := by
  unfold directoryNote? skippedDirectory?
  cases e.2 with
  | file content => rfl
  | link target => rfl
  | directory ks =>
    dsimp only
    split <;> rfl

/-- A link among entries is noted if it is passed over. -/
theorem notes_leaf (g : Guide) (here : List Text) (e : Text × Node) :
    (leaf g here e).notes = ((skippedLink? g here e).map Omission.note).toList := by
  unfold leaf skippedLink?
  cases e.2 with
  | file content => rfl
  | directory ks => rfl
  | link target =>
    dsimp only
    split <;> rfl

/-- The notes of some listings one after the other. -/
theorem notes_foldr (ls : List Listing) : (ls.foldr append empty).notes = ls.flatMap (·.notes) := by
  induction ls with
  | nil => rfl
  | cons l r ih =>
    rw [List.foldr_cons, List.flatMap_cons, ← ih]
    rfl

/-- The notes on the entries of a directory are those on what is passed over in it. -/
theorem notes_leaves (g : Guide) (here : List Text) (es : List (Text × Node)) :
    (leaves g here es).notes = (ownOmissions g here es).map Omission.note := by
  have hdirectories : es.filterMap (directoryNote? g here) =
      (es.filterMap (skippedDirectory? g here)).map Omission.note := by
    rw [List.map_filterMap]
    exact List.filterMap_congr fun e _ => directoryNote?_eq g here e
  have hlinks : ((es.map (leaf g here)).foldr append empty).notes =
      (es.filterMap (skippedLink? g here)).map Omission.note := by
    calc ((es.map (leaf g here)).foldr append empty).notes
        = es.flatMap fun e => (leaf g here e).notes := by rw [notes_foldr, List.flatMap_map]
      _ = es.flatMap fun e => ((skippedLink? g here e).map Omission.note).toList := by
          simp only [notes_leaf]
      _ = es.filterMap fun e => (skippedLink? g here e).map Omission.note :=
          (List.filterMap_eq_flatMap_toList _ es).symm
      _ = (es.filterMap (skippedLink? g here)).map Omission.note := List.map_filterMap.symm
  -- A directory's note is taken with the files of the level, a link's when its entry is reached.
  change es.filterMap (directoryNote? g here) ++
    ((es.map (leaf g here)).foldr append empty).notes = _
  rw [ownOmissions, List.map_append, hdirectories, hlinks]

/-- What is passed over in a directory itself comes in the order of the walk. -/
theorem pairwise_ownOmissions (h : (es.map (·.1)).Pairwise Text.Lt) :
    (ownOmissions g here es).Pairwise Omission.Before := by
  have hes : es.Pairwise fun e e' => Text.Lt e.1 e'.1 := List.pairwise_map.mp h
  -- The names decide among directories and among links; a directory always comes before a link.
  refine List.pairwise_append.mpr ⟨?_, ?_, ?_⟩
  · refine List.pairwise_filterMap.mpr (hes.imp fun hlt o ho o' ho' => ?_)
    obtain ⟨rfl, -⟩ := skippedDirectory?_eq_some_iff.mp ho
    obtain ⟨rfl, -⟩ := skippedDirectory?_eq_some_iff.mp ho'
    exact .name false hlt
  · refine List.pairwise_filterMap.mpr (hes.imp fun hlt o ho o' ho' => ?_)
    obtain ⟨rfl, -⟩ := skippedLink?_eq_some_iff.mp ho
    obtain ⟨rfl, -⟩ := skippedLink?_eq_some_iff.mp ho'
    exact .name true hlt
  · intro o ho o' ho'
    obtain ⟨e, -, ho⟩ := List.mem_filterMap.mp ho
    obtain ⟨e', -, ho'⟩ := List.mem_filterMap.mp ho'
    obtain ⟨rfl, -⟩ := skippedDirectory?_eq_some_iff.mp ho
    obtain ⟨rfl, -⟩ := skippedLink?_eq_some_iff.mp ho'
    exact .kind e.1 e'.1

/-- What is passed over is in a directory at or below the place of the tree. -/
theorem Omits.exists_here {n : Node} (h : Omits g n here o) : ∃ below, o.here = here ++ below := by
  cases h with
  | directory _ _ _ _ => exact ⟨_, rfl⟩
  | link _ _ _ => exact ⟨_, rfl⟩

/-- Nothing is passed over in what is no directory. -/
theorem Omits.exists_directory {n : Node} (h : Omits g n here o) : ∃ es, n = .directory es := by
  have hway {below : List Text} {name : Text} {m : Node} (hm : n.at? (below ++ [name]) = some m) :
      ∃ es, n = .directory es := by
    cases below with
    | nil =>
      obtain ⟨es, _, rfl, -⟩ := Node.exists_directory_of_at? hm
      exact ⟨es, rfl⟩
    | cons x r =>
      obtain ⟨es, _, rfl, -⟩ := Node.exists_directory_of_at? hm
      exact ⟨es, rfl⟩
  cases h with
  | directory _ h _ _ => exact hway h
  | link _ h _ => exact hway h

/-- What is below an entry of a directory is below the directory. -/
theorem at?_entry (once : (es.map (·.1)).Nodup) {e : Text × Node} (he : e ∈ es) (r : List Text) :
    Node.at? (.directory es) (e.1 :: r) = e.2.at? r := by
  rw [Node.at?, Node.entry?_of_mem once he, Option.bind_some]

/-- What is passed over in a directory itself is passed over. -/
theorem omits_of_mem_ownOmissions (once : (es.map (·.1)).Nodup) (h : o ∈ ownOmissions g here es) :
    Omits g (.directory es) here o := by
  rcases List.mem_append.mp h with h | h
  · obtain ⟨e, he, ho⟩ := List.mem_filterMap.mp h
    obtain ⟨rfl, ⟨ks, hk⟩, hname, hskip⟩ := skippedDirectory?_eq_some_iff.mp ho
    have hat : Node.at? (.directory es) ([] ++ [e.1]) = some (.directory ks) :=
      (at?_entry once he []).trans (congrArg some hk)
    have hown : Omits g (.directory es) here ⟨here ++ [], false, e.1⟩ :=
      .directory (by simp) hat hname hskip
    rwa [List.append_nil] at hown
  · obtain ⟨e, he, ho⟩ := List.mem_filterMap.mp h
    obtain ⟨rfl, target, hk, hleads⟩ := skippedLink?_eq_some_iff.mp ho
    have hat : Node.at? (.directory es) ([] ++ [e.1]) = some (.link target) :=
      (at?_entry once he []).trans (congrArg some hk)
    have hown : Omits g (.directory es) here ⟨here ++ [], true, e.1⟩ :=
      .link (by simp) hat (by rwa [List.append_nil])
    rwa [List.append_nil] at hown

/-- What is passed over in a directory that is entered is passed over in the directory above. -/
theorem omits_of_entry (once : (es.map (·.1)).Nodup) {e : Text × Node} (he : e ∈ es)
    (hx : g.enters e.1 = true) (h : Omits g e.2 (here ++ [e.1]) o) :
    Omits g (.directory es) here o := by
  cases h with
  | @directory below name ks way h hname hskip =>
    rw [List.append_assoc, List.singleton_append]
    have hat := (at?_entry once he _).trans h
    exact .directory (List.forall_mem_cons.mpr ⟨hx, way⟩) hat hname hskip
  | @link below name target way h hleads =>
    rw [List.append_assoc, List.singleton_append] at hleads ⊢
    have hat := (at?_entry once he _).trans h
    exact .link (List.forall_mem_cons.mpr ⟨hx, way⟩) hat hleads

/-- What is passed over in a directory is so in the directory itself, or in one of its directories
that is entered. -/
theorem omits_directory_iff (once : (es.map (·.1)).Nodup) : Omits g (.directory es) here o ↔
    o ∈ ownOmissions g here es ∨
      ∃ e ∈ es, g.enters e.1 = true ∧ Omits g e.2 (here ++ [e.1]) o := by
  constructor
  · intro h
    -- The first name of the way decides: with none left the entry is one of this directory, with
    -- one the walk goes on below the entry that it names.
    cases h with
    | @directory below name ks way h hname hskip =>
      cases below with
      | nil =>
        obtain ⟨_, k, heq, hk, hr⟩ := Node.exists_directory_of_at? h
        cases heq
        cases hr
        refine .inl (List.mem_append_left _ (List.mem_filterMap.mpr
          ⟨_, Node.mem_entries hk, skippedDirectory?_eq_some_iff.mpr ?_⟩))
        exact ⟨by rw [List.append_nil], ⟨ks, rfl⟩, hname, hskip⟩
      | cons x r =>
        obtain ⟨_, k, heq, hk, hr⟩ := Node.exists_directory_of_at? h
        cases heq
        obtain ⟨hx, hway⟩ := List.forall_mem_cons.mp way
        have hin : Omits g k (here ++ [x]) ⟨here ++ [x] ++ r, false, name⟩ :=
          .directory hway hr hname hskip
        rw [List.append_assoc, List.singleton_append] at hin
        exact .inr ⟨_, Node.mem_entries hk, hx, hin⟩
    | @link below name target way h hleads =>
      cases below with
      | nil =>
        obtain ⟨_, k, heq, hk, hr⟩ := Node.exists_directory_of_at? h
        cases heq
        cases hr
        rw [List.append_nil] at hleads
        refine .inl (List.mem_append_right _ (List.mem_filterMap.mpr
          ⟨_, Node.mem_entries hk, skippedLink?_eq_some_iff.mpr ?_⟩))
        exact ⟨by rw [List.append_nil], target, rfl, hleads⟩
      | cons x r =>
        obtain ⟨_, k, heq, hk, hr⟩ := Node.exists_directory_of_at? h
        cases heq
        obtain ⟨hx, hway⟩ := List.forall_mem_cons.mp way
        rw [← List.singleton_append, ← List.append_assoc] at hleads
        have hin : Omits g k (here ++ [x]) ⟨here ++ [x] ++ r, true, name⟩ :=
          .link hway hr hleads
        rw [List.append_assoc, List.singleton_append] at hin
        exact .inr ⟨_, Node.mem_entries hk, hx, hin⟩
  · rintro (h | ⟨e, he, hx, h⟩)
    · exact omits_of_mem_ownOmissions once h
    · exact omits_of_entry once he hx h

/-- What a list of omissions must be to be that of a walk: the notes are on its members, in order,
and these are what the walk passes over. -/
structure Records (notes : List Note) (omits : Omission → Prop) (os : List Omission) : Prop where
  /-- The notes are on the members. -/
  notes_eq : notes = os.map Omission.note
  /-- The members are in the order of the walk. -/
  ordered : os.Pairwise Omission.Before
  /-- The members are what is passed over. -/
  mem_iff : ∀ o, o ∈ os ↔ omits o

/-- The directories among entries that are entered have their omissions one after the other, if each
has its own. -/
theorem exists_records_walkAll (g : Guide) (here : List Text)
    (h : (es.map (·.1)).Pairwise Text.Lt)
    (hin : ∀ e ∈ es, ∃ os, Records (walk g (here ++ [e.1]) e.2).notes
      (Omits g e.2 (here ++ [e.1])) os) :
    ∃ os, Records (walkAll g here es).notes
      (fun o => ∃ e ∈ es, g.enters e.1 = true ∧ Omits g e.2 (here ++ [e.1]) o) os := by
  induction es with
  | nil => exact ⟨[], rfl, .nil, by simp⟩
  | cons e r ih =>
    obtain ⟨name, n⟩ := e
    obtain ⟨hfirst, hrest⟩ := List.pairwise_cons.mp h
    obtain ⟨⟨os, hos⟩, hin⟩ := List.forall_mem_cons.mp hin
    obtain ⟨os', hos'⟩ := ih hrest hin
    by_cases henters : g.enters name = true
    · have hwalk : walkAll g here ((name, n) :: r) =
          walk g (here ++ [name]) n ++ walkAll g here r := by rw [walkAll, if_pos henters]
      refine ⟨os ++ os', ?_, List.pairwise_append.mpr ⟨hos.ordered, hos'.ordered, ?_⟩, fun o => ?_⟩
      · rw [hwalk, List.map_append, ← hos.notes_eq, ← hos'.notes_eq]
        rfl
      · -- The two directories are in the same one, and their names are in order.
        intro o ho o' ho'
        obtain ⟨below, hhere⟩ := ((hos.mem_iff o).mp ho).exists_here
        obtain ⟨e', he', -, ho'⟩ := (hos'.mem_iff o').mp ho'
        obtain ⟨below', hhere'⟩ := ho'.exists_here
        have hlt : Text.Lt name e'.1 := hfirst _ (List.mem_map_of_mem he')
        have hlex : List.Lex Text.Lt (here ++ name :: below) (here ++ e'.1 :: below') :=
          List.Lex.append_left _ (.rel hlt) here
        refine .directory ?_
        rw [hhere, hhere', List.append_assoc, List.append_assoc]
        exact hlex
      · rw [List.mem_append, hos.mem_iff, hos'.mem_iff]
        simp [henters]
    · have hwalk : (walkAll g here ((name, n) :: r)).notes = (walkAll g here r).notes := by
        rw [walkAll, if_neg henters]
        rfl
      refine ⟨os', hwalk.trans hos'.notes_eq, hos'.ordered, fun o => ?_⟩
      rw [hos'.mem_iff]
      simp [henters]

/-- The notes of a walk through a tree in order are exactly those on what it passes over, in the
order of the walk. -/
theorem exists_omissions (g : Guide) {n : Node} (h : n.IsOrdered) (here : List Text) :
    ∃ os, Records (walk g here n).notes (Omits g n here) os := by
  have hnone {n : Node} {here : List Text} (hn : ∀ es, n ≠ .directory es) (o : Omission) :
      o ∈ [] ↔ Omits g n here o :=
    ⟨fun ho => absurd ho List.not_mem_nil, fun ho => (ho.exists_directory.elim hn).elim⟩
  induction h generalizing here with
  | file content => exact ⟨[], rfl, .nil, hnone fun _ heq => by cases heq⟩
  | link target => exact ⟨[], rfl, .nil, hnone fun _ heq => by cases heq⟩
  | @directory es names ordered inner ih =>
    obtain ⟨os, hos⟩ := exists_records_walkAll g here ordered
      fun e he => ih e he (here ++ [e.1])
    have once : (es.map (·.1)).Nodup := ordered.imp fun hlt => hlt.2
    refine ⟨ownOmissions g here es ++ os, ?_,
      List.pairwise_append.mpr ⟨pairwise_ownOmissions ordered, hos.ordered, ?_⟩, fun o => ?_⟩
    · rw [List.map_append, ← hos.notes_eq, ← notes_leaves, walk]
      rfl
    · -- A directory comes before the directories in it.
      intro o ho o' ho'
      have hhere : o.here = here := by
        rcases List.mem_append.mp ho with ho | ho
        · obtain ⟨e, -, ho⟩ := List.mem_filterMap.mp ho
          rw [(skippedDirectory?_eq_some_iff.mp ho).1]
        · obtain ⟨e, -, ho⟩ := List.mem_filterMap.mp ho
          rw [(skippedLink?_eq_some_iff.mp ho).1]
      obtain ⟨e', -, -, ho'⟩ := (hos.mem_iff o').mp ho'
      obtain ⟨below, hhere'⟩ := ho'.exists_here
      have hlex : List.Lex Text.Lt (here ++ []) (here ++ e'.1 :: below) :=
        List.Lex.append_left _ .nil here
      refine .directory ?_
      rw [hhere, hhere', List.append_assoc]
      simpa using hlex
    · rw [List.mem_append, hos.mem_iff, omits_directory_iff once]

/-- A walk finds exactly the files to which directories lead that are entered. -/
theorem mem_files_walk_iff {n : Node} (h : n.IsProper) {here : List Text} {f : Text} :
    f ∈ (walk g here n).files ↔ ∃ below content, f = Path.ofNames (here ++ below) ∧
      below ≠ [] ∧ n.at? below = some (.file content) ∧
      ∀ name ∈ below.dropLast, g.enters name = true := by
  constructor
  · intro hf
    obtain ⟨below, content, hpath, hat, -, hway⟩ := exists_of_mem_files_walk g h hf
    refine ⟨below, content, hpath, ?_, hat, hway⟩
    rintro rfl
    cases hat
    exact absurd hf List.not_mem_nil
  · rintro ⟨below, content, rfl, hne, hat, hway⟩
    -- The names lead down from directory to directory, and the last one is that of the file.
    induction below generalizing n here with
    | nil => exact absurd rfl hne
    | cons name r ih =>
      obtain ⟨es, k, rfl, hk, hr⟩ := Node.exists_directory_of_at? hat
      have hmem := Node.mem_entries hk
      rw [files_walk, List.mem_append, List.mem_flatMap, List.mem_flatMap]
      cases r with
      | nil =>
        cases hr
        exact .inl ⟨_, hmem, List.mem_singleton.mpr rfl⟩
      | cons x r =>
        cases h with
        | directory _ _ inner =>
          obtain ⟨hname, hway⟩ := List.forall_mem_cons.mp hway
          have hin : Path.ofNames (here ++ [name] ++ x :: r) ∈ (walk g (here ++ [name]) k).files :=
            ih (inner _ hmem) (by simp) hr hway
          rw [List.append_assoc, List.singleton_append] at hin
          refine .inr ⟨_, hmem, ?_⟩
          rw [if_pos hname]
          exact hin

end Walks

end Listing

namespace Plugin

variable {p : Plugin} {d : Disk} {skipped : List Text}

/-- What is some names down in the directory of a plugin, no link followed. -/
def below? (p : Plugin) (d : Disk) (names : List Text) : Option Node :=
  (d.find? p.path).bind (·.at? names)

/-- The directories with the name are walked through. -/
def IsEntered (skipped : List Text) (name : Text) : Prop :=
  name ≠ Manifest.directoryName ∧ name ∉ skipped

/-- The path is that of a file to which directories lead that are walked through. The manifest in
use is no such file. -/
structure Lists (p : Plugin) (d : Disk) (skipped : List Text) (manifest : Option Text)
    (path : Text) : Prop where
  /-- The path is not that of the manifest. -/
  ne_manifest : manifest ≠ some path
  /-- The names in the path lead to a file. -/
  exists_file : ∃ names content, path = Path.ofNames names ∧ names ≠ [] ∧
    p.below? d names = some (.file content) ∧ ∀ name ∈ names.dropLast, IsEntered skipped name

/-- What is passed over with a note: a directory with a name that is to be skipped, and a link that
does not lead to a directory. The directories on the way there are walked through. -/
inductive Omits (p : Plugin) (d : Disk) (skipped : List Text) : Listing.Omission → Prop where
  /-- A directory with a name that is to be skipped. -/
  | directory {here : List Text} {name : Text} {es : List (Text × Node)}
    (way : ∀ x ∈ here, IsEntered skipped x)
    (h : p.below? d (here ++ [name]) = some (.directory es))
    (hname : name ≠ Manifest.directoryName) (hskip : name ∈ skipped) :
    Omits p d skipped ⟨here, false, name⟩
  /-- A link that does not lead to a directory. -/
  | link {here : List Text} {name target : Text} (way : ∀ x ∈ here, IsEntered skipped x)
    (h : p.below? d (here ++ [name]) = some (.link target))
    (hleads : d.linkIsDirectory (p.directory ++ here) target = false) :
    Omits p d skipped ⟨here, true, name⟩

/-- The paths of a kind. -/
def ofKind (p : Plugin) (k : FileKind) (paths : List Text) : List Text :=
  paths.filter fun f => decide (p.kindOf f = .ok k)

/-- How many paths there are of which kind. -/
def counts (p : Plugin) (paths : List Text) : Summary :=
  ⟨paths.length, (p.ofKind .markdown paths).length, (p.ofKind .script paths).length,
    (p.ofKind .hooks paths).length, (p.ofKind .servers paths).length⟩

/-- What the files of a plugin are listed as, and what is noted: the paths increase strictly, and
the notes are in the order of the walk. -/
structure IsListing (p : Plugin) (d : Disk) (skipped : List Text) (manifest : Option Text)
    (paths : List Text) (omissions : List Listing.Omission) : Prop where
  /-- The paths are listed, and the notes are those on the omissions. -/
  run_eq : ∀ before, (p.collect d).runFrom before =
    (.ok paths, before ++ omissions.map Listing.Omission.note)
  /-- The paths increase strictly. -/
  increasing : paths.Pairwise Text.Lt
  /-- The paths are those of the files that are to be listed. -/
  mem_paths_iff : ∀ path, path ∈ paths ↔ p.Lists d skipped manifest path
  /-- The omissions are in the order of the walk. -/
  ordered : omissions.Pairwise Listing.Omission.Before
  /-- Nothing is noted twice. -/
  nodup : omissions.Nodup
  /-- The omissions are what is passed over with a note. -/
  mem_omissions_iff : ∀ o, o ∈ omissions ↔ p.Omits d skipped o

/-- No path is of two kinds. -/
theorem disjoint_ofKind (p : Plugin) {k k' : FileKind} (h : k ≠ k') (paths : List Text) :
    (p.ofKind k paths).Disjoint (p.ofKind k' paths) := by
  intro f hf hf'
  have hk : p.kindOf f = .ok k := of_decide_eq_true (List.mem_filter.mp hf).2
  have hk' : p.kindOf f = .ok k' := of_decide_eq_true (List.mem_filter.mp hf').2
  exact h (Except.ok.inj (hk.symm.trans hk'))

/-- The guide of a walk skips the names in the settings. -/
theorem isSkipped_guide {name : Text} :
    (p.guide d (skipped.map .text)).isSkipped name = true ↔ name ∈ skipped :=
  Value.any_isText_iff

/-- The guide of a walk enters the directories that are walked through. -/
theorem enters_guide {name : Text} :
    (p.guide d (skipped.map .text)).enters name = true ↔ IsEntered skipped name := by
  unfold Listing.Guide.enters IsEntered
  rw [Bool.and_eq_true, bne_iff_ne, Bool.not_eq_true', ← Bool.not_eq_true, isSkipped_guide]

/-- A walk through a plugin passes over what is passed over in its directory. -/
theorem omits_iff {n : Node} (hn : d.find? p.path = some n) {o : Listing.Omission} :
    Listing.Omits (p.guide d (skipped.map .text)) n [] o ↔ p.Omits d skipped o := by
  have hbelow (names : List Text) : p.below? d names = n.at? names := by
    rw [below?, hn, Option.bind_some]
  constructor
  · intro h
    cases h with
    | directory way h hname hskip =>
      exact .directory (fun x hx => enters_guide.mp (way x hx)) ((hbelow _).trans h) hname
        (isSkipped_guide.mp hskip)
    | link way h hleads =>
      exact .link (fun x hx => enters_guide.mp (way x hx)) ((hbelow _).trans h) hleads
  · intro h
    cases h with
    | directory way h hname hskip =>
      exact Listing.Omits.directory (fun x hx => enters_guide.mpr (way x hx))
        ((hbelow _).symm.trans h) hname (isSkipped_guide.mpr hskip)
    | link way h hleads =>
      exact Listing.Omits.link (fun x hx => enters_guide.mpr (way x hx))
        ((hbelow _).symm.trans h) hleads

/-- What a walk through a plugin passes over is noted, in the order of the walk. -/
theorem exists_omissions (p : Plugin) (skipped : List Text) (hd : d.root.IsOrdered) :
    ∃ os, Listing.Records (p.listing d (skipped.map .text)).notes (p.Omits d skipped) os := by
  unfold listing
  cases hn : d.find? p.path with
  | none =>
    have hnone (names : List Text) : p.below? d names = none := by rw [below?, hn]; rfl
    refine ⟨[], rfl, .nil, fun o => ⟨fun ho => absurd ho List.not_mem_nil, fun ho => ?_⟩⟩
    cases ho with
    | directory _ h _ _ => cases (hnone _).symm.trans h
    | link _ h _ => cases (hnone _).symm.trans h
  | some n =>
    obtain ⟨q, hq⟩ := Disk.follow_of_find? hn
    have hordered : n.IsOrdered := hd.at? (Disk.at?_of_follow Disk.linkLimit hq)
    obtain ⟨os, hos⟩ := Listing.exists_omissions (p.guide d (skipped.map .text)) hordered []
    exact ⟨os, hos.notes_eq, hos.ordered, fun o => (hos.mem_iff o).trans (omits_iff hn)⟩

/-- The paths of a walk through a plugin are those that are listed. -/
theorem mem_pathsIn_listing (hd : d.root.IsProper) {manifest : Option Text} {path : Text} :
    path ∈ pathsIn (p.listing d (skipped.map .text)) manifest ↔
      p.Lists d skipped manifest path := by
  have hfiles : path ∈ (p.listing d (skipped.map .text)).files ↔
      ∃ names content, path = Path.ofNames names ∧ names ≠ [] ∧
        p.below? d names = some (.file content) ∧
        ∀ name ∈ names.dropLast, IsEntered skipped name := by
    unfold listing below?
    -- Without a directory for the plugin nothing is walked through, and nothing is below.
    cases hn : d.find? p.path with
    | none => simp [Listing.empty]
    | some n =>
      rw [Listing.mem_files_walk_iff (Disk.isProper_of_find? hd hn)]
      simp only [enters_guide, List.nil_append, Option.bind_some]
  rw [pathsIn, Text.mem_sort, List.mem_filter, hfiles, bne_iff_ne]
  constructor
  · rintro ⟨h, hne⟩
    exact ⟨fun heq => hne heq.symm, h⟩
  · intro h
    exact ⟨h.exists_file, fun heq => h.ne_manifest heq.symm⟩

/-- Listing the files of a plugin is a walk through it, unless the manifest cannot be looked for. -/
theorem runFrom_collect (hs : p.settings.skipDirectories = .list (skipped.map .text))
    (before : List Note) : (p.collect d).runFrom before =
      match p.manifestPlace? d with
      | .error f => (.error f, before)
      | .ok manifest =>
        (.ok (pathsIn (p.listing d (skipped.map .text)) manifest),
          before ++ (p.listing d (skipped.map .text)).notes) := by
  have hkeys : (skipped.map Value.text).mapM Value.asKey = .ok (skipped.map .text) := by
    refine Attempt.mapM_eq_ok_iff.mpr (List.forall₂_same.mpr fun v hv => ?_)
    obtain ⟨t, -, rfl⟩ := List.mem_map.mp hv
    rfl
  have hnames : p.settings.skipDirectories.elements = .ok (skipped.map .text) := by rw [hs]; rfl
  unfold collect
  rw [hnames, Noting.ofAttempt_ok_bind, hkeys, Noting.ofAttempt_ok_bind, Noting.runFrom_bind,
    Noting.runFrom_ofAttempt]
  cases p.manifestPlace? d <;> rfl

/-- The files of a plugin that is read are those that are listed, in their order. -/
theorem paths_of_outcome_contents {c : Contents} (h : (p.contents d).outcome = .ok c)
    {paths : List Text} (hl : (p.collect d).outcome = .ok paths) :
    c.files.map (·.path) = paths ∧ ∀ f ∈ c.files, p.kindOf f.path = .ok f.kind := by
  obtain ⟨-, paths', hl', hfiles⟩ := exists_of_outcome_contents h
  cases hl.symm.trans hl'
  generalize c.files = files at hfiles ⊢
  clear hl hl' h
  induction hfiles with
  | nil => exact ⟨rfl, by simp⟩
  | @cons relative f rs fs hf _ ih =>
    have hreads := reads_of_outcome hf
    have hpath : f.path = relative := hreads.path_eq
    refine ⟨by rw [List.map_cons, ih.1, hpath], List.forall_mem_cons.mpr ⟨?_, ih.2⟩⟩
    rw [hpath]
    exact hreads.kindOf_eq

/-- The files of a kind are as many as the paths of the kind. -/
theorem length_ofKind {c : Contents} (h : ∀ f ∈ c.files, p.kindOf f.path = .ok f.kind)
    (k : FileKind) : (c.ofKind k).length = (p.ofKind k (c.files.map (·.path))).length := by
  unfold Contents.ofKind ofKind
  rw [List.filter_map, List.length_map]
  congr 1
  refine List.filter_congr fun f hf => ?_
  rw [Function.comp_apply, h f hf, Bool.eq_iff_iff, beq_iff_eq, decide_eq_true_eq, Except.ok.injEq]

/-- The summary of contents counts their paths. -/
theorem summary_eq {c : Contents} (h : ∀ f ∈ c.files, p.kindOf f.path = .ok f.kind) :
    Analyzer.summary c = p.counts (c.files.map (·.path)) := by
  unfold Analyzer.summary counts
  simp only [length_ofKind h, List.length_map]

/-- The files of a plugin are listed if its manifest can be looked for. -/
theorem exists_isListing (hd : d.root.IsOrdered)
    (hs : p.settings.skipDirectories = .list (skipped.map .text)) {manifest : Option Text}
    (hm : p.manifestPlace? d = .ok manifest) :
    ∃ paths omissions, p.IsListing d skipped manifest paths omissions := by
  obtain ⟨os, hos⟩ := p.exists_omissions skipped hd
  have hrun (before : List Note) : (p.collect d).runFrom before =
      (.ok (pathsIn (p.listing d (skipped.map .text)) manifest),
        before ++ os.map Listing.Omission.note) := by
    rw [runFrom_collect hs before, hm, ← hos.notes_eq]
  exact ⟨_, os,
    { run_eq := hrun
      increasing := pairwise_collect hd.isProper (congrArg Prod.fst (hrun []))
      mem_paths_iff := fun path => mem_pathsIn_listing hd.isProper
      ordered := hos.ordered
      nodup := hos.ordered.imp Listing.Omission.Before.ne
      mem_omissions_iff := hos.mem_iff }⟩

end Plugin

/-- If the place of the manifest can be looked for and the walk is within reach, the files of a
plugin are listed exactly, and so are the notes on what is passed over, in the order of the walk.
The counts of the files by kind are those of the paths that are listed. -/
theorem files_listed_exactly (p : Plugin) (d : Disk) (skipped : List Text)
    (hd : d.root.IsOrdered) (hs : p.settings.skipDirectories = .list (skipped.map .text))
    {manifest : Option Text} (hm : p.manifestPlace? d = .ok manifest) :
    p.IsWalkable d (skipped.map .text) →
      (∀ m, p.manifest d = .ok m → manifest = some m.path) ∧
      ∃ paths omissions, p.IsListing d skipped manifest paths omissions ∧
        ∀ c, (p.contents d).outcome = .ok c → c.files.map (·.path) = paths ∧
          Analyzer.summary c = p.counts paths ∧
          ∀ k k' : FileKind, k ≠ k' → (p.ofKind k paths).Disjoint (p.ofKind k' paths) := by
  intro _
  constructor
  · intro m hmanifest
    obtain ⟨text, _, _, ⟨-, hplace, -⟩, -⟩ := Plugin.exists_of_manifest hmanifest
    exact Except.ok.inj (hm.symm.trans hplace)
  · obtain ⟨paths, omissions, hlisting⟩ := Plugin.exists_isListing hd hs hm
    refine ⟨paths, omissions, hlisting, fun c hc => ?_⟩
    obtain ⟨hpaths, hkinds⟩ :=
      Plugin.paths_of_outcome_contents hc (congrArg Prod.fst (hlisting.run_eq []))
    exact ⟨hpaths, hpaths ▸ Plugin.summary_eq hkinds, fun k k' hk => p.disjoint_ofKind hk _⟩

/-- A plugin with two manifests, a directory to be skipped at two levels, a link to a directory, one
to a file and one to nothing. -/
def entangled : Disk where
  root :=
    ([(["p", ".claude-plugin", "plugin.json"], .file "\x7b\"name\":\"x\"\x7d".toUTF8.toList),
      (["p", "plugin.json"], .file []), (["p", "a.md"], .file []), (["p", "a", "z.sh"], .file []),
      (["p", "a", "k"], .link "../a.md"), (["p", "a", "node_modules", "y.js"], .file []),
      (["p", "node_modules", "x.js"], .file []), (["p", "l"], .link "a"),
      (["p", "m"], .link "nowhere")] : List (List Text × Node)).foldr
      (fun e root => .put e.2 e.1 root) (.directory [])
  current := []

/-- The names of directories that the default settings skip. -/
def standardSkipped : List Text := ["node_modules", ".git", "__pycache__", ".venv", "venv"]

/-- The tangled plugin, open. -/
def entangledPlugin : Plugin := ⟨["p"], {}, 1024⟩

/-- The files of the tangled plugin are listed: the second manifest is an ordinary file, and the
link to a directory is passed over without a note. -/
theorem files_listed_exactly_entangled : entangled.root.IsOrdered ∧
    entangledPlugin.manifestPlace? entangled = .ok (some ".claude-plugin/plugin.json") ∧
    entangledPlugin.IsWalkable entangled (standardSkipped.map .text) ∧
    ∃ omissions, entangledPlugin.IsListing entangled standardSkipped
        (some ".claude-plugin/plugin.json")
        ["a.md", "a/z.sh", "plugin.json"] omissions ∧
      omissions.map Listing.Omission.note = [.directory "node_modules", .link "m",
        .directory "a/node_modules", .link "a/k"] ∧
      ∃ c, (entangledPlugin.contents entangled).outcome = .ok c ∧
        Analyzer.summary c = entangledPlugin.counts ["a.md", "a/z.sh", "plugin.json"] ∧
        Analyzer.summary c = ⟨3, 1, 1, 0, 0⟩ := by
  have hordered : entangled.root.IsOrdered := by
    refine Node.isOrdered_foldr_put ?_
    simp only [List.forall_mem_cons]
    exact ⟨⟨.file _, by decide⟩, ⟨.file _, by decide⟩, ⟨.file _, by decide⟩, ⟨.file _, by decide⟩,
      ⟨.link _, by decide⟩, ⟨.file _, by decide⟩, ⟨.file _, by decide⟩, ⟨.link _, by decide⟩,
      ⟨.link _, by decide⟩, by simp⟩
  have hplace : entangledPlugin.manifestPlace? entangled =
      .ok (some ".claude-plugin/plugin.json") := by decide +kernel
  have hsummary : (entangledPlugin.contents entangled).outcome.map Analyzer.summary =
      .ok ⟨3, 1, 1, 0, 0⟩ := by decide +kernel
  have hwalk : entangledPlugin.IsWalkable entangled (standardSkipped.map .text) :=
    Plugin.isWalkable_of_root (by decide +kernel) (by decide +kernel)
  obtain ⟨c, hc, hcounted⟩ := Attempt.map_eq_ok_iff.mp hsummary
  obtain ⟨-, paths, omissions, hlisting, hcounts⟩ :=
    files_listed_exactly entangledPlugin entangled standardSkipped hordered rfl hplace hwalk
  -- The walk itself is run once; the list and the notes that it gives are then the ones there are.
  have hrun : (entangledPlugin.collect entangled).runFrom [] =
      (.ok ["a.md", "a/z.sh", "plugin.json"], [.directory "node_modules", .link "m",
        .directory "a/node_modules", .link "a/k"]) := by decide +kernel
  obtain ⟨hpaths, hnotes⟩ := Prod.mk.inj ((hlisting.run_eq []).symm.trans hrun)
  cases hpaths
  exact ⟨hordered, hplace, hwalk, omissions, hlisting, hnotes, c, hc, (hcounts c hc).2.1, hcounted⟩

/-- A plugin with a document, where the place of the manifest is a link to a name that is too long.
-/
def overstretched : Disk where
  root := .directory [("p", .directory
    [("a.md", .file []), ("plugin.json", .link (List.replicate 256 (.scalar 'a')))])]
  current := []

/-- A document that is to be listed is not if the manifest cannot be looked for, and a link that is
to be noted is not either. -/
theorem overlong_link_stops_listing : overstretched.root.IsOrdered ∧
    entangledPlugin.Lists overstretched standardSkipped none "a.md" ∧
    entangledPlugin.Omits overstretched standardSkipped ⟨[], true, "plugin.json"⟩ ∧
    ∀ before, (entangledPlugin.collect overstretched).runFrom before =
      (.error (.file .nameTooLong "/p/plugin.json"), before) := by
  have hordered : overstretched.root.IsOrdered := by
    refine .directory (by decide) (by decide) ?_
    simp only [List.forall_mem_cons]
    refine ⟨.directory (by decide) (by decide) ?_, by simp⟩
    simp only [List.forall_mem_cons]
    exact ⟨.file _, .link _, by simp⟩
  have hplace : entangledPlugin.manifestPlace? overstretched =
      .error (.file .nameTooLong "/p/plugin.json") := by decide +kernel
  have hfound : overstretched.find? entangledPlugin.path = some (.directory
      [("a.md", .file []), ("plugin.json", .link (List.replicate 256 (.scalar 'a')))]) := rfl
  have hfile : entangledPlugin.below? overstretched ["a.md"] = some (.file []) := by
    rw [Plugin.below?, hfound]
    rfl
  -- The name that the link holds is too long for a file, so it cannot be followed at all.
  have hlink : entangledPlugin.below? overstretched ([] ++ [("plugin.json" : Text)]) =
      some (.link (List.replicate 256 (.scalar 'a'))) := by
    rw [Plugin.below?, hfound]
    rfl
  have hskipped : entangledPlugin.settings.skipDirectories =
      .list (standardSkipped.map .text) := rfl
  refine ⟨hordered, ⟨by simp, ["a.md"], [], rfl, by simp, hfile, by simp⟩,
    .link (by simp) hlink (by decide +kernel), fun before => ?_⟩
  rw [Plugin.runFrom_collect hskipped before, hplace]

end SurfaceAudit
