import SurfaceAudit.Plugin.Basic
import SurfaceAudit.Proofs.Lookup

/-!
# Files below a directory of a disk

A path is read name by name (`Path.names_ofNames`). Names that lead on from a directory through
nothing but directories lead to what the tree holds there, unless one of them is too long
(`Disk.followWith_below`), and it does not matter how the directory was reached
(`Disk.follow_append`). So a file of a plugin is read exactly as the tree of the plugin holds it
(`Plugin.read_pathOf`).
-/

namespace SurfaceAudit

namespace Text

variable {sep : Point → Bool}

/-- The fields done come first. -/
theorem fieldsFrom_done (t field : Text) (done : List Text) :
    fieldsFrom sep t field done = done.reverse ++ fieldsFrom sep t field [] := by
  induction t generalizing field done with
  | nil => simp [fieldsFrom]
  | cons c r ih =>
    unfold fieldsFrom
    split
    · rw [ih [] (field.reverse :: done), ih [] [field.reverse]]
      simp
    · exact ih (c :: field) done

/-- A separator ends the fields before it. -/
theorem fieldsFrom_append {c : Point} (hc : sep c = true) (s t field : Text) (done : List Text) :
    fieldsFrom sep (s ++ c :: t) field done =
      fieldsFrom sep t [] (fieldsFrom sep s field done).reverse := by
  induction s generalizing field done with
  | nil => simp [fieldsFrom, hc]
  | cons x r ih =>
    rw [List.cons_append, fieldsFrom, fieldsFrom]
    split
    · exact ih [] _
    · exact ih _ done

/-- The fields on both sides of a separator. -/
theorem fields_append {c : Point} (hc : sep c = true) (s t : Text) :
    fields sep (s ++ c :: t) = fields sep s ++ fields sep t := by
  unfold fields
  rw [fieldsFrom_append hc, fieldsFrom_done, List.reverse_reverse]

/-- A text without separators is one field. -/
theorem fields_eq_singleton {t : Text} (h : ∀ p ∈ t, sep p = false) : fields sep t = [t] := by
  have hfrom (t field : Text) (h : ∀ p ∈ t, sep p = false) :
      fieldsFrom sep t field [] = [field.reverse ++ t] := by
    induction t generalizing field with
    | nil => simp [fieldsFrom]
    | cons c r ih =>
      rw [fieldsFrom, if_neg (by simp [h c List.mem_cons_self]),
        ih (c :: field) fun p hp => h p (List.mem_cons_of_mem c hp)]
      simp
  exact hfrom t [] h

end Text

namespace Path

/-- A text is a name for an entry of a directory: it is not empty, no dot or two dots, and has no
slash. -/
structure IsName (t : Text) : Prop where
  /-- It is not empty. -/
  ne_nil : t ≠ []
  /-- It does not stand for the directory itself. -/
  ne_dot : t ≠ ("." : Text)
  /-- It does not stand for the directory above. -/
  ne_up : t ≠ up
  /-- It has no slash. -/
  noSlash : ∀ p ∈ t, isSlash p = false

instance (t : Text) : Decidable (IsName t) :=
  decidable_of_iff (t ≠ [] ∧ t ≠ ("." : Text) ∧ t ≠ up ∧ ∀ p ∈ t, isSlash p = false)
    ⟨fun ⟨h, hd, hu, hs⟩ => ⟨h, hd, hu, hs⟩, fun h => ⟨h.ne_nil, h.ne_dot, h.ne_up, h.noSlash⟩⟩

/-- A path of one name. -/
theorem IsName.names_eq {t : Text} (h : IsName t) : names t = [t] := by
  unfold names
  rw [Text.fields_eq_singleton h.noSlash, List.filter_cons_of_pos, List.filter_nil]
  simpa using ⟨h.ne_nil, h.ne_dot⟩

/-- The names on both sides of a slash. -/
theorem names_append (s t : Text) : names (s ++ .scalar '/' :: t) = names s ++ names t := by
  unfold names
  rw [Text.fields_append (by decide), List.filter_append]

/-- The empty path has no names. -/
theorem names_nil : names [] = [] := rfl

/-- A path that is made of one name is that name. -/
theorem ofNames_singleton (n : Text) : ofNames [n] = n := by
  simp [ofNames, Text.join, List.intercalate]

/-- A slash stands between the first name and the others. -/
theorem ofNames_cons_cons (n m : Text) (r : List Text) :
    ofNames (n :: m :: r) = n ++ .scalar '/' :: ofNames (m :: r) := by
  simp [ofNames, Text.join, List.intercalate, Text.ofString]

/-- The names of a path that is put together are those of its parts. -/
theorem names_ofNames (ns : List Text) : names (ofNames ns) = ns.flatMap names := by
  induction ns with
  | nil => rfl
  | cons n r ih =>
    rw [List.flatMap_cons, ← ih]
    cases r with
    | nil => simp [ofNames, Text.join, List.intercalate, names_nil]
    | cons m r => rw [ofNames_cons_cons, names_append]

/-- The first slash of an absolute path has no name before it. -/
theorem names_absolute (ns : List Text) : names (absolute ns) = ns.flatMap names := by
  rw [absolute, ← names_ofNames]
  exact names_append [] (ofNames ns)

/-- Names that are names stay as they are. -/
theorem flatMap_names {ns : List Text} (h : ∀ n ∈ ns, IsName n) : ns.flatMap names = ns := by
  induction ns with
  | nil => rfl
  | cons n r ih =>
    rw [List.flatMap_cons, (h n List.mem_cons_self).names_eq,
      ih fun m hm => h m (List.mem_cons_of_mem n hm)]
    rfl

end Path

namespace Node

/-- What is some names down, and then some more. -/
theorem at?_append (n : Node) (q b : List Text) : n.at? (q ++ b) = (n.at? q).bind (·.at? b) := by
  induction q generalizing n with
  | nil => rfl
  | cons name r ih =>
    rw [List.cons_append, at?, at?, Option.bind_assoc]
    congr 1
    funext k
    exact ih k

/-- Only directories have something names down. -/
theorem exists_directory_of_at? {n m : Node} {name : Text} {r : List Text}
    (h : n.at? (name :: r) = some m) :
    ∃ es k, n = .directory es ∧ n.entry? name = some k ∧ k.at? r = some m := by
  obtain ⟨k, hk, hm⟩ := Option.bind_eq_some_iff.mp h
  cases n with
  | directory es => exact ⟨es, k, rfl, hk, hm⟩
  | file bytes => simp [entries, entry?] at hk
  | link target => simp [entries, entry?] at hk

end Node

namespace Disk

/-- The end of a way from a place down through directories, which a name that is too long cuts
short. -/
def endBelow (q below : List Text) (m : Node) : Except FileDefect Reached :=
  if below.any (nameLimit < byteCount ·) then .error .nameTooLong else .ok (q ++ below, some m)

section Follow

variable {root n m : Node} {q below : List Text}

/-- What names lead to is what the tree has at the place reached, if that is so where a link
leads. -/
theorem at?_of_followWith {jump : List Text → List Text → Except FileDefect Reached}
    (hjump : ∀ here names q node, jump here names = .ok (q, node) → root.at? q = node)
    {here names : List Text} {node : Option Node}
    (h : followWith root jump here names = .ok (q, node)) : root.at? q = node := by
  induction names generalizing here with
  | nil =>
    cases h
    rfl
  | cons name r ih =>
    obtain ⟨es, hes⟩ := exists_directory_of_followWith h
    rw [followWith_cons hes] at h
    split at h
    · exact ih h
    split at h
    · cases h
    split at h
    · rename_i hnone
      split at h
      · cases h
        rw [Node.at?_append, hes]
        simpa [Node.at?] using hnone
      · cases h
    · exact hjump _ _ _ _ h
    · exact ih h

/-- What names lead to is what the tree has at the place reached. -/
theorem at?_of_follow (links : Nat) {here names : List Text} {node : Option Node}
    (h : follow root links here names = .ok (q, node)) : root.at? q = node := by
  induction links generalizing here names node q with
  | zero => exact at?_of_followWith (fun _ _ _ _ hl => by cases hl) h
  | succ links ih => exact at?_of_followWith (fun _ _ _ _ hl => ih hl) h

/-- What a path leads to is what the tree has at the place reached. -/
theorem at?_of_locate {d : Disk} {path : Text} {node : Option Node}
    (h : d.locate path = .ok (q, node)) : d.root.at? q = node := by
  unfold locate at h
  split at h
  · cases h
  · exact at?_of_follow linkLimit h

/-- Names that lead down through directories lead to what is there. -/
theorem followWith_below {jump : List Text → List Text → Except FileDefect Reached}
    (hq : root.at? q = some n) (hm : n.at? below = some m) (hlink : m.isLink = false)
    (hup : Path.up ∉ below) : followWith root jump q below = endBelow q below m := by
  induction below generalizing q n with
  | nil =>
    cases hm
    rw [followWith, hq]
    simp [endBelow]
  | cons name r ih =>
    obtain ⟨es, k, rfl, hk, hr⟩ := Node.exists_directory_of_at? hm
    obtain ⟨hne, hup⟩ := not_or.mp (mt List.mem_cons.mpr hup)
    rw [followWith_cons hq, if_neg (by simpa using Ne.symm hne)]
    by_cases hlong : nameLimit < byteCount name
    · rw [if_pos hlong, endBelow, List.any_cons, if_pos (by simp [hlong])]
    rw [if_neg hlong, hk]
    have hplace : root.at? (q ++ [name]) = some k := by
      rw [Node.at?_append, hq]
      simpa [Node.at?] using hk
    have hend : endBelow (q ++ [name]) r m = endBelow q (name :: r) m := by
      simp [endBelow, hlong]
    cases k with
    | link target =>
      -- Nothing is below a link, and what is reached is none.
      cases r with
      | nil =>
        cases hr
        cases hlink
      | cons x r => simp [Node.at?, Node.entry?, Node.entries] at hr
    | file bytes => exact (ih hplace hr hup).trans hend
    | directory ks => exact (ih hplace hr hup).trans hend

/-- Names that lead on from a place lead on from there however the place was reached, if they do
where a link leads. -/
theorem followWith_append {jump : List Text → List Text → Except FileDefect Reached}
    (hm : n.at? below = some m) (hlink : m.isLink = false) (hup : Path.up ∉ below)
    (hjump : ∀ here names, jump here names = .ok (q, some n) →
      jump here (names ++ below) = endBelow q below m)
    {here names : List Text} (hn : followWith root jump here names = .ok (q, some n)) :
    followWith root jump here (names ++ below) = endBelow q below m := by
  -- The way to the place may go through links and up again; only what follows goes straight down.
  induction names generalizing here with
  | nil =>
    simp only [followWith, Except.ok.injEq, Prod.mk.injEq] at hn
    obtain ⟨rfl, hn⟩ := hn
    exact followWith_below hn hm hlink hup
  | cons name r ih =>
    obtain ⟨es, hes⟩ := exists_directory_of_followWith hn
    rw [followWith_cons hes] at hn
    rw [List.cons_append, followWith_cons hes]
    by_cases hname : (name == Path.up) = true
    · rw [if_pos hname] at hn ⊢
      exact ih hn
    rw [if_neg hname] at hn ⊢
    by_cases hlong : nameLimit < byteCount name
    · rw [if_pos hlong] at hn
      cases hn
    rw [if_neg hlong] at hn ⊢
    cases hk : Node.entry? (.directory es) name with
    | none =>
      simp only [hk] at hn
      split at hn <;> cases hn
    | some k =>
      rw [hk] at hn
      cases k with
      | file bytes => exact ih hn
      | link target =>
        rw [← hjump _ _ hn, List.append_assoc]
      | directory ks => exact ih hn

/-- Names that lead on from a place lead on from there however the place was reached. -/
theorem follow_append (hm : n.at? below = some m) (hlink : m.isLink = false)
    (hup : Path.up ∉ below) (links : Nat) {here names : List Text}
    (hn : follow root links here names = .ok (q, some n)) :
    follow root links here (names ++ below) = endBelow q below m := by
  induction links generalizing here names with
  | zero => exact followWith_append hm hlink hup (fun _ _ hl => by cases hl) hn
  | succ links ih => exact followWith_append hm hlink hup (fun _ _ hl => ih hl) hn

end Follow

/-- What comes of reading a file that is some names down from a directory: its bytes, unless the
path is none, or it or a name is too long. -/
def readBelow (path : Text) (below : List Text) (content : List UInt8) : Attempt (List UInt8) :=
  match nameFault? path with
  | some f => .error f
  | none =>
    if pathLimit < byteCount path ∨ below.any (nameLimit < byteCount ·) then
      .error (.file .nameTooLong path)
    else .ok content

/-- Whether the bytes of a file can be had does not depend on them. -/
theorem readBelow_cases (path : Text) (below : List Text) :
    (∃ f, ∀ content, readBelow path below content = .error f) ∨
      ∀ content, readBelow path below content = .ok content := by
  unfold readBelow
  cases nameFault? path with
  | some f => exact .inl ⟨f, fun _ => rfl⟩
  | none =>
    by_cases hlong : pathLimit < byteCount path ∨ below.any (nameLimit < byteCount ·)
    · exact .inl ⟨_, fun _ => if_pos hlong⟩
    · exact .inr fun _ => if_neg hlong

/-- A path that leads to a directory has one. -/
theorem hasDirectory_of_find? {d : Disk} {path : Text} {es : List (Text × Node)}
    (h : d.find? path = some (.directory es)) : d.hasDirectory path = .ok true := by
  have hlook : d.look path = .ok (some (.directory es)) := by
    unfold look
    split
    · rename_i hname hl
      simp [find?, hname, hl] at h
    · rw [h]
  rw [hasDirectory, hlook]
  rfl

/-- A path of names that leads to something is followed from the root. -/
theorem follow_of_find? {d : Disk} {names : List Text} {n : Node}
    (h : d.find? (Path.absolute names) = some n) :
    ∃ q, follow d.root linkLimit [] (names.flatMap Path.names) = .ok (q, some n) := by
  unfold find? locate at h
  split at h
  · cases h
  split at h
  · rename_i q node hl
    split at hl
    · cases hl
    subst h
    rw [Path.names_absolute] at hl
    exact ⟨q, hl⟩
  · cases h

end Disk

namespace Plugin

/-- With the default settings, a plugin is opened at each path that has a plain form. -/
theorem open?_of_plainNames {d : Disk} {path : Text} {names : List Text}
    (h : d.plainNames path = .ok names) :
    open? d path {} = .ok ⟨names, {}, 1024 * 1024⟩ := by
  unfold open?
  rw [h]
  rfl

/-- A file of a plugin is located as the tree of the plugin holds it, below the place of the
plugin. -/
theorem exists_locate_pathOf {p : Plugin} {d : Disk} {n : Node} (hn : d.find? p.path = some n) :
    ∃ q, ∀ (below : List Text) (content : List UInt8), n.at? below = some (.file content) →
      (∀ name ∈ below, Path.IsName name) → d.locate (p.pathOf (Path.ofNames below)) =
        if Disk.pathLimit < Disk.byteCount (p.pathOf (Path.ofNames below)) then .error .nameTooLong
        else Disk.endBelow q below (.file content) := by
  obtain ⟨q, hq⟩ := Disk.follow_of_find? hn
  refine ⟨q, fun below content hf hnames => ?_⟩
  have hbelow : Path.names (Path.ofNames below) = below := by
    rw [Path.names_ofNames, Path.flatMap_names hnames]
  have hup : Path.up ∉ below := fun h => (hnames _ h).ne_up rfl
  have hpath : Path.names (p.pathOf (Path.ofNames below)) =
      p.directory.flatMap Path.names ++ below := by
    rw [pathOf, Path.names_absolute, List.flatMap_append, hbelow, Path.flatMap_names hnames]
  have hstart : d.startOf (p.pathOf (Path.ofNames below)) = [] := rfl
  unfold Disk.locate
  rw [hstart, hpath, Disk.follow_append hf rfl hup Disk.linkLimit hq]

/-- A file of a plugin is read as the tree of the plugin holds it. -/
theorem read_pathOf {p : Plugin} {d : Disk} {n : Node} {below : List Text} {content : List UInt8}
    (hn : d.find? p.path = some n) (hf : n.at? below = some (.file content))
    (hnames : ∀ name ∈ below, Path.IsName name) :
    d.read (p.pathOf (Path.ofNames below)) =
      Disk.readBelow (p.pathOf (Path.ofNames below)) below content := by
  obtain ⟨q, hq⟩ := exists_locate_pathOf hn
  unfold Disk.read Disk.readBelow
  rw [hq below content hf hnames]
  cases Disk.nameFault? (p.pathOf (Path.ofNames below)) with
  | some f => rfl
  | none =>
    unfold Disk.endBelow
    by_cases hlong : Disk.pathLimit < Disk.byteCount (p.pathOf (Path.ofNames below))
    · simp [hlong]
    · by_cases hany : below.any (Disk.nameLimit < Disk.byteCount ·)
      · simp [hlong, hany]
      · simp [hlong, hany]

end Plugin

end SurfaceAudit
