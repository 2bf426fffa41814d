import SurfaceAudit.Proofs.Failure
import SurfaceAudit.Proofs.Places
import SurfaceAudit.Proofs.Walk

/-!
# What is not looked at

Two trees look the same to a plugin (`Plugin.SameNode`) if they have the same names and kinds of
nodes outside the directories that are passed over, their links lead to directories or not alike,
and the files that are read hold the same bytes or are too large alike. A walk through both finds
the same (`Plugin.SameNode.walk_eq`), and every file that it finds is read alike
(`Plugin.SameView.file_eq`), so that what differs elsewhere changes no analysis
(`unseen_changes_nothing`).
-/

namespace SurfaceAudit

namespace Node

/-- Every directory of the tree has names for its entries, and each of them once. -/
inductive IsProper : Node → Prop where
  /-- A file. -/
  | file (content : List UInt8) : IsProper (.file content)
  /-- A link. -/
  | link (target : Text) : IsProper (.link target)
  /-- A directory. -/
  | directory {es : List (Text × Node)} (names : ∀ e ∈ es, Path.IsName e.1)
    (once : (es.map (·.1)).Nodup) (inner : ∀ e ∈ es, IsProper e.2) : IsProper (.directory es)

mutual

/-- Whether a tree is proper is decided along the tree. -/
def decIsProper : (n : Node) → Decidable (IsProper n)
  | .file content => .isTrue (.file content)
  | .link target => .isTrue (.link target)
  | .directory es =>
    if h : (∀ e ∈ es, Path.IsName e.1) ∧ (es.map (·.1)).Nodup then
      match decAreProper es with
      | .isTrue hi => .isTrue (.directory h.1 h.2 hi)
      | .isFalse hi => .isFalse fun (.directory _ _ inner) => hi inner
    else .isFalse fun (.directory names once _) => h ⟨names, once⟩

/-- `decIsProper` for all entries. -/
def decAreProper : (es : List (Text × Node)) → Decidable (∀ e ∈ es, IsProper e.2)
  | [] => .isTrue fun _ he => nomatch he
  | (_, n) :: r =>
    match decIsProper n, decAreProper r with
    | .isTrue hn, .isTrue hr => .isTrue (List.forall_mem_cons.mpr ⟨hn, hr⟩)
    | .isFalse hn, _ => .isFalse fun h => hn (List.forall_mem_cons.mp h).1
    | _, .isFalse hr => .isFalse fun h => hr (List.forall_mem_cons.mp h).2

end

instance : DecidablePred IsProper := decIsProper

/-- An entry whose name is there once is had by its name. -/
theorem entry?_of_mem {es : List (Text × Node)} (h : (es.map (·.1)).Nodup) {e : Text × Node}
    (he : e ∈ es) : Node.entry? (.directory es) e.1 = some e.2 := by
  obtain ⟨before, after, rfl⟩ := List.append_of_mem he
  rw [List.map_append, List.map_cons, List.nodup_append] at h
  refine entry?_self e.2 fun x hx => ?_
  exact h.2.2 x.1 (List.mem_map_of_mem hx) e.1 List.mem_cons_self

end Node

namespace Listing

/-- A file that a walk finds is some names down, and all directories on the way are entered. -/
theorem exists_of_mem_files_walk (g : Guide) {n : Node} (h : n.IsProper) {here : List Text}
    {f : Text} (hf : f ∈ (walk g here n).files) :
    ∃ below content, f = Path.ofNames (here ++ below) ∧ n.at? below = some (.file content) ∧
      (∀ name ∈ below, Path.IsName name) ∧ ∀ name ∈ below.dropLast, g.enters name = true := by
  induction h generalizing here with
  | file content => exact absurd hf List.not_mem_nil
  | link target => exact absurd hf List.not_mem_nil
  | @directory es names once _ ih =>
    rw [files_walk, List.mem_append, List.mem_flatMap, List.mem_flatMap] at hf
    -- A file is in the directory itself, or in one of its directories that is entered.
    rcases hf with ⟨⟨name, n⟩, he, hf⟩ | ⟨⟨name, n⟩, he, hf⟩
    · unfold ownFiles at hf
      split at hf
      · rename_i hfile
        cases n with
        | file content =>
          refine ⟨[name], content, List.mem_singleton.mp hf, ?_, ?_, by simp⟩
          · rw [Node.at?, Node.entry?_of_mem once he]
            rfl
          · simpa using names _ he
        | link target => cases hfile
        | directory ks => cases hfile
      · exact absurd hf List.not_mem_nil
    · split at hf
      · rename_i henters
        obtain ⟨below, content, rfl, hat, hnames, hin⟩ := ih _ he hf
        refine ⟨name :: below, content, by simp, ?_, ?_, ?_⟩
        · rw [Node.at?, Node.entry?_of_mem once he]
          exact hat
        · exact List.forall_mem_cons.mpr ⟨names _ he, hnames⟩
        · cases below with
          | nil => simp
          | cons x r => exact List.forall_mem_cons.mpr ⟨henters, hin⟩
      · exact absurd hf List.not_mem_nil

end Listing

namespace Plugin

section Views

variable (p : Plugin) (d d' : Disk)

/-- Two contents of a file count for the same: the file is of no kind that is read, or they are
the same, or both are too large and have the same size. -/
def SameContent (relative : Text) (content content' : List UInt8) : Prop :=
  ∀ kind, p.kindOf relative = .ok kind → kind ≠ .other →
    content' = content ∨ (p.sizeLimit < content.length ∧ content'.length = content.length)

/-- The directories with a name are passed over: it is that of the directory of the manifest, or
one of those that the settings name. -/
def Prunes (name : Text) : Prop :=
  name = Manifest.directoryName ∨
    ∃ skipped, p.settings.skipDirectories.elements = .ok skipped ∧
      ∃ v ∈ skipped, v.isText name = true

/-- Two nodes at a place in a plugin look the same. -/
inductive SameNode : List Text → Node → Node → Prop where
  /-- Files whose contents count for the same. -/
  | file {place : List Text} {content content' : List UInt8}
    (h : p.SameContent (Path.ofNames place) content content') :
    SameNode place (.file content) (.file content')
  /-- Links that both lead to a directory, or both do not. -/
  | link {place : List Text} {target target' : Text}
    (h : d'.linkIsDirectory (p.directory ++ place.dropLast) target' =
      d.linkIsDirectory (p.directory ++ place.dropLast) target) :
    SameNode place (.link target) (.link target')
  /-- Directories that are passed over, whatever is in them. -/
  | pruned {place : List Text} {name : Text} {es es' : List (Text × Node)}
    (hname : place.getLast? = some name) (h : p.Prunes name) :
    SameNode place (.directory es) (.directory es')
  /-- Directories with the same names and, under each name, nodes that look the same. -/
  | directory {place : List Text} {es es' : List (Text × Node)}
    (names : es'.map (·.1) = es.map (·.1))
    (inner : ∀ e e', (e, e') ∈ es.zip es' → SameNode (place ++ [e.1]) e.2 e'.2) :
    SameNode place (.directory es) (.directory es')

/-- Two disks look the same to a plugin: the manifest is in the same place and is read alike, and
there are directories at the path of the plugin that look the same. -/
structure SameView : Prop where
  /-- The manifest is in the same place. -/
  place : p.manifestPlace? d' = p.manifestPlace? d
  /-- The manifest is read alike. -/
  manifest : ∀ place, p.manifestPlace? d = .ok (some place) →
    d'.read (p.pathOf place) = d.read (p.pathOf place)
  /-- The directories of the plugin look the same. -/
  tree : ∃ es es', d.find? p.path = some (.directory es) ∧
    d'.find? p.path = some (.directory es') ∧ Node.IsProper (.directory es) ∧
    p.SameNode d d' [] (.directory es) (.directory es')

end Views

variable {p : Plugin} {d d' : Disk} {skipped : List Value}

/-- The settings name keys, which stay as they are. -/
theorem eq_of_mapM_asKey {vs ks : List Value} (h : vs.mapM Value.asKey = .ok ks) : ks = vs := by
  rw [Attempt.mapM_eq_ok_iff] at h
  induction h with
  | nil => rfl
  | @cons v k _ _ hv _ ih =>
    unfold Value.asKey at hv
    split at hv
    · cases hv
      rw [ih]
    · cases hv

/-- A walk enters the directories that are not passed over. -/
theorem enters_iff (hs : p.settings.skipDirectories.elements = .ok skipped) (d : Disk)
    (name : Text) : (p.guide d skipped).enters name = true ↔ ¬ p.Prunes name := by
  unfold Listing.Guide.enters Prunes guide
  simp [hs]

/-- Two lists of entries with the same names, the nodes under each of which are in a relation. -/
abbrev Paired (R : Text → Node → Node → Prop) (es es' : List (Text × Node)) : Prop :=
  List.Forall₂ (fun e e' => e'.1 = e.1 ∧ R e.1 e.2 e'.2) es es'

/-- Entries with the same names are paired. -/
theorem paired_of_zip {R : Text → Node → Node → Prop} {es es' : List (Text × Node)}
    (names : es'.map (·.1) = es.map (·.1))
    (inner : ∀ e e', (e, e') ∈ es.zip es' → R e.1 e.2 e'.2) : Paired R es es' := by
  induction es generalizing es' with
  | nil =>
    rw [List.map_eq_nil_iff.mp names]
    exact .nil
  | cons e r ih =>
    obtain ⟨e', r', rfl, hname, hnames⟩ := List.map_eq_cons_iff.mp names
    refine .cons ⟨hname, inner e e' List.mem_cons_self⟩ (ih hnames fun x x' hx => ?_)
    exact inner x x' (List.mem_cons_of_mem _ hx)

/-- Of paired entries, one has a name if the other has. -/
theorem Paired.exists_entry {R : Text → Node → Node → Prop} {es es' : List (Text × Node)}
    (h : Paired R es es') {name : Text} {n : Node}
    (hn : Node.entry? (.directory es) name = some n) :
    ∃ n', Node.entry? (.directory es') name = some n' ∧ R name n n' := by
  induction h with
  | nil => cases hn
  | @cons e e' r r' he _ ih =>
    obtain ⟨hname, he⟩ := he
    unfold Node.entry? Node.entries at hn ih ⊢
    by_cases hx : e.1 = name
    · rw [List.find?_cons_of_pos (by simpa using hx)] at hn
      rw [List.find?_cons_of_pos (by simpa [hname] using hx)]
      cases hn
      exact ⟨e'.2, rfl, hx ▸ he⟩
    · rw [List.find?_cons_of_neg (by simpa using hx)] at hn
      rw [List.find?_cons_of_neg (by simpa [hname] using hx)]
      exact ih hn

/-- A file in directories that are entered is there in both trees, with contents that count for the
same. -/
theorem SameNode.exists_file {place below : List Text} {n n' : Node}
    (h : p.SameNode d d' place n n') (hplace : ∀ name, place.getLast? = some name → ¬ p.Prunes name)
    {content : List UInt8} (hf : n.at? below = some (.file content)) (hne : below ≠ [])
    (hin : ∀ name ∈ below.dropLast, ¬ p.Prunes name) :
    ∃ content', n'.at? below = some (.file content') ∧
      p.SameContent (Path.ofNames (place ++ below)) content content' := by
  -- Each directory on the way is entered, so that the nodes there are not paired as passed over.
  induction below generalizing place n n' with
  | nil => exact absurd rfl hne
  | cons name r ih =>
    obtain ⟨es, k, rfl, hk, hr⟩ := Node.exists_directory_of_at? hf
    cases h with
    | pruned hname h => exact absurd h (hplace _ hname)
    | @directory _ es es' names inner =>
      obtain ⟨k', hk', hsame⟩ := (paired_of_zip
        (R := fun x n n' => p.SameNode d d' (place ++ [x]) n n') names inner).exists_entry hk
      rw [Node.at?, hk', Option.bind_some]
      cases r with
      | nil =>
        cases hr
        cases hsame with
        | file h => exact ⟨_, rfl, h⟩
      | cons x r =>
        rw [List.dropLast_cons_of_ne_nil (by simp), List.forall_mem_cons] at hin
        have hlast : ∀ y, (place ++ [name]).getLast? = some y → ¬ p.Prunes y := by
          intro y hy
          rw [List.getLast?_concat, Option.some.injEq] at hy
          exact hy ▸ hin.1
        obtain ⟨content', hat, h⟩ := ih hsame hlast hr (by simp) hin.2
        exact ⟨content', hat, by simpa using h⟩

/-- What an entry is that is no directory is the same for nodes that look the same. -/
theorem SameNode.leaf_eq {here : List Text} {e e' : Text × Node} (hname : e'.1 = e.1)
    (h : p.SameNode d d' (here ++ [e.1]) e.2 e'.2) (skipped : List Value) :
    Listing.leaf (p.guide d' skipped) here e' = Listing.leaf (p.guide d skipped) here e := by
  obtain ⟨name, n⟩ := e
  obtain ⟨name', n'⟩ := e'
  cases hname
  cases h with
  | file _ => rfl
  | pruned _ _ => rfl
  | directory _ _ => rfl
  | link h =>
    rw [List.dropLast_concat] at h
    unfold Listing.leaf guide
    simp only [h]

/-- The note on a directory is the same for nodes that look the same. -/
theorem SameNode.directoryNote?_eq {here : List Text} {e e' : Text × Node} (hname : e'.1 = e.1)
    (h : p.SameNode d d' (here ++ [e.1]) e.2 e'.2) (skipped : List Value) :
    Listing.directoryNote? (p.guide d' skipped) here e' =
      Listing.directoryNote? (p.guide d skipped) here e := by
  obtain ⟨name, n⟩ := e
  obtain ⟨name', n'⟩ := e'
  cases hname
  cases h <;> rfl

/-- What entries are, without what is in directories, is the same for nodes that look the same. -/
theorem leaves_eq {here : List Text} {es es' : List (Text × Node)}
    (h : Paired (fun x n n' => p.SameNode d d' (here ++ [x]) n n') es es') (skipped : List Value) :
    Listing.leaves (p.guide d' skipped) here es' = Listing.leaves (p.guide d skipped) here es := by
  have hnotes : es'.filterMap (Listing.directoryNote? (p.guide d' skipped) here) =
      es.filterMap (Listing.directoryNote? (p.guide d skipped) here) := by
    induction h with
    | nil => rfl
    | cons he _ ih =>
      rw [List.filterMap_cons, List.filterMap_cons, he.2.directoryNote?_eq he.1 skipped, ih]
  have hleaves : es'.map (Listing.leaf (p.guide d' skipped) here) =
      es.map (Listing.leaf (p.guide d skipped) here) := by
    clear hnotes
    induction h with
    | nil => rfl
    | cons he _ ih => rw [List.map_cons, List.map_cons, he.2.leaf_eq he.1 skipped, ih]
  rw [Listing.leaves, Listing.leaves, hnotes, hleaves]

/-- A walk through nodes that look the same finds the same. -/
theorem SameNode.walk_eq (hs : p.settings.skipDirectories.elements = .ok skipped)
    {place : List Text} {n n' : Node} (h : p.SameNode d d' place n n')
    (hplace : ∀ name, place.getLast? = some name → ¬ p.Prunes name) :
    Listing.walk (p.guide d' skipped) place n' = Listing.walk (p.guide d skipped) place n := by
  induction h with
  | file _ => rfl
  | link _ => rfl
  | pruned hname h => exact absurd h (hplace _ hname)
  | @directory place es es' names inner ih =>
    have hinner : Listing.walkAll (p.guide d' skipped) place es' =
        Listing.walkAll (p.guide d skipped) place es := by
      -- The hypothesis of the induction holds under each name, but counts only where it is entered.
      have hpaired := paired_of_zip
        (R := fun x n n' => (∀ y, (place ++ [x]).getLast? = some y → ¬ p.Prunes y) →
          Listing.walk (p.guide d' skipped) (place ++ [x]) n' =
            Listing.walk (p.guide d skipped) (place ++ [x]) n) names ih
      clear names inner ih
      induction hpaired with
      | nil => rfl
      | @cons e e' r r' he _ ih =>
        obtain ⟨name, n⟩ := e
        obtain ⟨name', n'⟩ := e'
        obtain ⟨rfl, he⟩ := he
        rw [Listing.walkAll, Listing.walkAll, ih]
        by_cases hin : p.Prunes name'
        · rw [if_neg (mt (enters_iff hs d' name').mp (not_not.mpr hin)),
            if_neg (mt (enters_iff hs d name').mp (not_not.mpr hin))]
        · rw [if_pos ((enters_iff hs d' name').mpr hin), if_pos ((enters_iff hs d name').mpr hin),
            he fun y hy => ?_]
          rw [List.getLast?_concat, Option.some.injEq] at hy
          exact hy ▸ hin
    rw [Listing.walk, Listing.walk, hinner, leaves_eq (paired_of_zip names inner)]

/-- The text of a file that is too large is not read. -/
theorem textOf_of_size {relative : Text} {content : List UInt8}
    (hr : d.read (p.pathOf relative) = .ok content) (hs : p.sizeLimit < content.length) :
    p.textOf d relative =
      (Noting.add [.size content.length relative] >>= fun _ => pure none) := by
  unfold textOf
  simp only [hr, if_pos hs]

/-- A file in two trees whose contents count for the same is read alike. -/
theorem textOf_same {relative : Text} {below : List Text} {content content' : List UInt8}
    (hr : d.read (p.pathOf relative) = Disk.readBelow (p.pathOf relative) below content)
    (hr' : d'.read (p.pathOf relative) = Disk.readBelow (p.pathOf relative) below content')
    (h : content' = content ∨
      (p.sizeLimit < content.length ∧ content'.length = content.length)) :
    p.textOf d' relative = p.textOf d relative := by
  have hsame (heq : d'.read (p.pathOf relative) = d.read (p.pathOf relative)) :
      p.textOf d' relative = p.textOf d relative := by
    unfold textOf
    rw [heq]
  rcases h with rfl | ⟨hlarge, hsize⟩
  · exact hsame (hr'.trans hr.symm)
  · -- Whether the bytes are had does not depend on them, and of too many only the number is told.
    rcases Disk.readBelow_cases (p.pathOf relative) below with ⟨f, hf⟩ | hok
    · exact hsame (by rw [hr', hr, hf, hf])
    · rw [hok] at hr hr'
      rw [textOf_of_size hr hlarge, textOf_of_size hr' (hsize ▸ hlarge), hsize]

/-- A file that is listed in a proper tree is there, in directories that a walk enters. -/
theorem exists_of_mem_collect {n : Node} (hn : d.find? p.path = some n) (hproper : n.IsProper)
    {paths : List Text} (hl : (p.collect d).outcome = .ok paths) {relative : Text}
    (hr : relative ∈ paths) :
    ∃ names below content, p.settings.skipDirectories.elements = .ok names ∧
      relative = Path.ofNames below ∧ n.at? below = some (.file content) ∧
      (∀ name ∈ below, Path.IsName name) ∧
      ∀ name ∈ below.dropLast, (p.guide d names).enters name = true := by
  rw [outcome_collect] at hl
  obtain ⟨names, hnames, hl⟩ := Attempt.bind_eq_ok_iff.mp hl
  obtain ⟨skipped, hk, hl⟩ := Attempt.bind_eq_ok_iff.mp hl
  obtain ⟨manifest, -, rfl⟩ := Attempt.map_eq_ok_iff.mp hl
  cases eq_of_mapM_asKey hk
  have hfound : relative ∈ (Listing.walk (p.guide d names) [] n).files := by
    unfold pathsIn listing at hr
    rw [hn, Text.sort_eq, List.mem_insertionSort] at hr
    exact (List.mem_filter.mp hr).1
  obtain ⟨below, content, rfl, hf, hbelow, hin⟩ :=
    Listing.exists_of_mem_files_walk _ hproper hfound
  exact ⟨names, below, content, hnames, rfl, hf, hbelow, hin⟩

namespace SameView

/-- The manifest is the same. -/
theorem manifest_eq (h : p.SameView d d') : p.manifest d' = p.manifest d := by
  obtain ⟨es, es', hes, hes', -, -⟩ := h.tree
  have hdirectory : d'.hasDirectory p.path = d.hasDirectory p.path := by
    rw [Disk.hasDirectory_of_find? hes, Disk.hasDirectory_of_find? hes']
  -- The place is the same, so the text there is the only thing that could differ.
  have hat (place : Text) (hp : p.manifestPlace? d = .ok (some place)) :
      p.manifestAt d' place = p.manifestAt d place := by
    have htext : p.manifestText d' place = p.manifestText d place := by
      simp only [manifestText, h.manifest place hp]
    unfold manifestAt
    rw [htext]
  unfold Plugin.manifest
  rw [hdirectory, h.place]
  refine Attempt.bind_congr_ok fun isDirectory _ => ?_
  cases isDirectory with
  | false => rfl
  | true =>
    refine Attempt.bind_congr_ok fun place? hp => ?_
    cases place? with
    | none => rfl
    | some place => exact hat place hp

/-- A walk finds the same. -/
theorem listing_eq (h : p.SameView d d') (hs : p.settings.skipDirectories.elements = .ok skipped) :
    p.listing d' skipped = p.listing d skipped := by
  obtain ⟨es, es', hes, hes', -, hsame⟩ := h.tree
  unfold listing
  rw [hes, hes']
  exact hsame.walk_eq hs (by simp)

/-- The files are listed alike. -/
theorem collect_eq (h : p.SameView d d') : p.collect d' = p.collect d := by
  refine Noting.bind_congr_outcome (Noting.isSteady_ofAttempt _) fun names hn => ?_
  refine Noting.bind_congr_outcome (Noting.isSteady_ofAttempt _) fun skipped hk => ?_
  rw [Noting.outcome_ofAttempt] at hn hk
  rw [h.place, eq_of_mapM_asKey hk, h.listing_eq hn]

/-- A file that is listed is read alike. -/
theorem file_eq (h : p.SameView d d') {paths : List Text}
    (hl : (p.collect d).outcome = .ok paths) {relative : Text} (hr : relative ∈ paths) :
    p.file d' relative = p.file d relative := by
  obtain ⟨es, es', hes, hes', hproper, hsame⟩ := h.tree
  obtain ⟨names, below, content, hn, rfl, hf, hnames, hin⟩ :=
    exists_of_mem_collect hes hproper hl hr
  have hne : below ≠ [] := by
    rintro rfl
    cases hf
  obtain ⟨content', hf', hcontent⟩ := hsame.exists_file (by simp) hf hne
    fun name hname => (enters_iff hn d name).mp (hin name hname)
  unfold file
  refine Noting.bind_congr_outcome (Noting.isSteady_ofAttempt _) fun kind hkind => ?_
  split
  · rfl
  · rename_i ho
    rw [textOf_same (read_pathOf hes hf hnames) (read_pathOf hes' hf' hnames)
      (hcontent kind hkind (by simpa using ho))]

/-- The plugin is read alike. -/
theorem contents_eq (h : p.SameView d d') : p.contents d' = p.contents d := by
  unfold contents
  rw [h.manifest_eq, h.collect_eq]
  refine Noting.bind_congr_outcome (Noting.isSteady_ofAttempt _) fun m _ => ?_
  refine Noting.bind_congr_outcome (isSteady_collect p d) fun paths hl => ?_
  rw [Noting.mapM_congr_mem fun relative hr => h.file_eq hl hr]

end SameView

end Plugin

/-- What is not looked at changes no analysis. If a path leads to the same directory of two disks,
which look the same to the plugin there, the analyses are the same: both give the same result, or
fail alike. -/
theorem unseen_changes_nothing (a : Analyzer) (d d' : Disk) (path : Text)
    (h : d'.plainNames path = d.plainNames path)
    (hp : ∀ p, Plugin.open? d path a.config.files = .ok p → p.SameView d d') :
    a.analyze d' path = a.analyze d path := by
  have hopen : Plugin.open? d' path a.config.files = Plugin.open? d path a.config.files := by
    unfold Plugin.open?
    rw [h]
  have hsurvey : a.survey d' path = a.survey d path := by
    rw [Analyzer.survey_eq, Analyzer.survey_eq, hopen]
    refine Attempt.bind_congr_ok fun p hx => ?_
    rw [(hp p hx).contents_eq]
  unfold Analyzer.analyze
  rw [hsurvey]

/-- A disk with a plugin, given what is in its parts that are not looked at: in a directory that is
passed over, beside the manifest, in a file of no kind that is read, in a script that is too large,
and where a link leads. -/
def veiled (passed : Text × Node) (beside other large target : List UInt8) : Disk where
  root := .directory [("lib.sh", .file target), ("p", .directory
    [(".claude-plugin", .directory [("notes", .file beside),
      ("plugin.json", .file "\x7b\"name\":\"x\"\x7d".toUTF8.toList)]),
    ("lib.sh", .link "../lib.sh"), ("license", .file other), ("node_modules", .directory [passed]),
    ("run.sh", .file large)])]
  current := []

/-- An analyzer that reads no file of more than a kibibyte. -/
def frugalAnalyzer : Analyzer := ⟨{ files := { maxFileSize := .int 1 } }, .empty, .inTurn⟩

/-- What is in the veiled parts of a plugin changes nothing of its analysis, which has a result. -/
theorem unseen_changes_nothing_veiled :
    ∃ r, frugalAnalyzer.analyze
        (veiled ("a.sh", .file [10]) [1] [2] (List.replicate 1025 65) [3]) "/p" = .ok r ∧
      frugalAnalyzer.analyze
        (veiled ("b", .directory []) [4, 5] [] (List.replicate 1025 66) []) "/p" = .ok r := by
  obtain ⟨r, hr⟩ : ∃ r, frugalAnalyzer.analyze
      (veiled ("a.sh", .file [10]) [1] [2] (List.replicate 1025 65) [3]) "/p" = .ok r :=
    Attempt.exists_of_isOk (by decide +kernel)
  refine ⟨r, hr, ?_⟩
  rw [← hr]
  refine unseen_changes_nothing frugalAnalyzer _ _ "/p" (by decide +kernel) fun p hopen => ?_
  obtain ⟨names, hn, hopen⟩ := Attempt.bind_eq_ok_iff.mp hopen
  obtain ⟨units, hu, hopen⟩ := Attempt.bind_eq_ok_iff.mp hopen
  have hplain : (veiled ("a.sh", .file [10]) [1] [2] (List.replicate 1025 65) [3]).plainNames "/p" =
      .ok ["p"] := by decide +kernel
  cases hplain.symm.trans hn
  cases hu
  cases hopen
  refine ⟨by decide +kernel, fun place hplace => ?_, _, _, rfl, rfl, ?_, ?_⟩
  · rw [show Plugin.manifestPlace? _ _ = .ok (some (".claude-plugin/plugin.json" : Text)) by
      decide +kernel] at hplace
    cases hplace
    decide +kernel
  · decide +kernel
  · refine .directory rfl fun e e' he => ?_
    simp only [List.zip_cons_cons, List.zip_nil_right, List.mem_cons, Prod.mk.injEq,
      List.not_mem_nil, or_false] at he
    -- Entry by entry: a directory that is skipped, a link, a file of no kind, one more directory,
    -- and a file that is too large.
    rcases he with ⟨rfl, rfl⟩ | ⟨rfl, rfl⟩ | ⟨rfl, rfl⟩ | ⟨rfl, rfl⟩ | ⟨rfl, rfl⟩
    · exact .pruned rfl (.inl rfl)
    · exact .link (by decide +kernel)
    · refine .file fun kind hkind ho => ?_
      have hother : FileKind.ofPath frugalAnalyzer.config.files "license" = .ok .other := by
        decide +kernel
      cases hother.symm.trans hkind
      exact absurd rfl ho
    · exact .pruned rfl (.inr ⟨_, rfl, .text "node_modules", by simp, by decide +kernel⟩)
    · exact .file fun kind hkind ho => .inr ⟨by decide +kernel, by decide +kernel⟩

end SurfaceAudit
