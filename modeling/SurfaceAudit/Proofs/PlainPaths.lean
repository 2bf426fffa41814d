import Mathlib.Data.List.TakeWhile
import SurfaceAudit.Proofs.Roots

/-!
# Plain paths

A place is plain if it is given by names and no link is on the way to it (`Node.IsPlain`). Making
the path of a directory plain that is there changes nothing (`Disk.plainNames_absolute`), and
looking it up leads to the directory (`Disk.hasDirectory_absolute`). The plain form of a path is
given by names (`Disk.isName_of_plainNames`), and it is plain unless a circle of links is met when
it is made (`Disk.isPlain_of_plainNames`): both follow from what each step of the making keeps
(`Disk.exists_of_plainFrom`).
-/

namespace SurfaceAudit

namespace Text

/-- A field has no separator in it. -/
theorem not_sep_of_mem_fields {sep : Point → Bool} {t field : Text} (h : field ∈ fields sep t) :
    ∀ p ∈ field, sep p = false := by
  have hfrom (t field : Text) (hfield : ∀ p ∈ field, sep p = false) :
      ∀ f ∈ fieldsFrom sep t field [], ∀ p ∈ f, sep p = false := by
    induction t generalizing field with
    | nil => simpa [fieldsFrom] using hfield
    | cons c r ih =>
      rw [fieldsFrom]
      split
      · rw [fieldsFrom_done]
        refine List.forall_mem_append.mpr ⟨by simpa using hfield, ih [] (by simp)⟩
      · rename_i hc
        exact ih _ (List.forall_mem_cons.mpr ⟨by simpa using hc, hfield⟩)
  exact hfrom t [] (by simp) field h

end Text

namespace Path

/-- Each name of a path is a name, or goes up. -/
theorem eq_up_or_isName {t name : Text} (h : name ∈ names t) : name = up ∨ IsName name := by
  obtain ⟨hfield, hname⟩ := List.mem_filter.mp h
  obtain ⟨hne, hdot⟩ : name ≠ [] ∧ name ≠ ("." : Text) := by simpa using hname
  by_cases hup : name = up
  · exact .inl hup
  · exact .inr ⟨hne, hdot, hup, Text.not_sep_of_mem_fields hfield⟩

/-- A path as the last name of another one goes on with its own names. -/
theorem ofNames_concat_ofNames (ns : List Text) {ms : List Text} (h : ms ≠ []) :
    ofNames (ns ++ [ofNames ms]) = ofNames (ns ++ ms) := by
  obtain ⟨m, r, rfl⟩ := List.exists_cons_of_ne_nil h
  induction ns with
  | nil => exact ofNames_singleton _
  | cons n ns ih =>
    cases ns with
    | nil =>
      rw [List.cons_append, List.nil_append, List.cons_append, List.nil_append, ofNames_cons_cons,
        ofNames_cons_cons, ofNames_singleton]
    | cons k ns =>
      rw [List.cons_append, List.cons_append, List.cons_append, List.cons_append,
        ofNames_cons_cons, ofNames_cons_cons]
      exact congrArg (n ++ .scalar '/' :: ·) ih

/-- A name has no slash at its end. -/
theorem IsName.getLast?_ne {n : Text} (h : IsName n) : n.getLast? ≠ some (.scalar '/') := by
  intro hlast
  have hslash := h.noSlash _ (List.mem_of_getLast? hlast)
  exact absurd hslash (by decide)

/-- A path of names is not empty. -/
theorem ofNames_ne_nil {n : Text} (h : IsName n) (r : List Text) : ofNames (n :: r) ≠ [] := by
  intro hnil
  have hprefix : ofNames [n] <+: ofNames (n :: r) := ofNames_isPrefix [n] r
  rw [hnil, ofNames_singleton] at hprefix
  exact h.ne_nil (List.prefix_nil.mp hprefix)

/-- A path of names has no slash at its end. -/
theorem getLast?_ofNames_ne {ns : List Text} (h : ∀ n ∈ ns, IsName n) :
    (ofNames ns).getLast? ≠ some (.scalar '/') := by
  induction ns with
  | nil => simp [ofNames, Text.join, List.intercalate]
  | cons n r ih =>
    obtain ⟨hn, hr⟩ := List.forall_mem_cons.mp h
    cases r with
    | nil =>
      rw [ofNames_singleton]
      exact hn.getLast?_ne
    | cons m r =>
      -- Behind a slash there are more names, so that the last code point is one of theirs.
      have hne : ofNames (m :: r) ≠ [] := ofNames_ne_nil (hr m List.mem_cons_self) r
      rw [ofNames_cons_cons, List.getLast?_append, List.getLast?_cons_of_ne_nil hne]
      cases hlast : (ofNames (m :: r)).getLast? with
      | none => exact absurd (List.getLast?_eq_none_iff.mp hlast) hne
      | some p =>
        rw [Option.some_or, ← hlast]
        exact ih hr

/-- A path that goes on by one name. -/
theorem ofNames_concat {ns : List Text} (h : ns ≠ []) (name : Text) :
    ofNames (ns ++ [name]) = ofNames ns ++ .scalar '/' :: name := by
  induction ns with
  | nil => exact absurd rfl h
  | cons n r ih =>
    cases r with
    | nil =>
      rw [List.cons_append, List.nil_append, ofNames_cons_cons, ofNames_singleton,
        ofNames_singleton]
    | cons m r =>
      rw [List.cons_append, List.cons_append, ofNames_cons_cons, ofNames_cons_cons,
        List.append_assoc, List.cons_append]
      exact congrArg (n ++ .scalar '/' :: ·) (ih (by simp))

/-- What is below a path of names is one name further down. -/
theorem below_absolute {ns : List Text} (h : ∀ n ∈ ns, IsName n) (name : Text) :
    below (absolute ns) name = absolute (ns ++ [name]) := by
  unfold below
  cases ns with
  | nil => simp [absolute, ofNames, Text.join, List.intercalate]
  | cons n r =>
    have hne : ofNames (n :: r) ≠ [] := ofNames_ne_nil (h n List.mem_cons_self) r
    have hlast : (absolute (n :: r)).getLast? ≠ some (.scalar '/') := by
      rw [absolute, List.getLast?_cons_of_ne_nil hne]
      exact getLast?_ofNames_ne h
    rw [if_neg (by simpa [absolute] using hlast), absolute, absolute, ofNames_concat (by simp)]
    rfl

/-- An absolute path of names starts with a single slash. -/
theorem root_absolute {ns : List Text} (h : ∀ n ∈ ns, IsName n) :
    root (absolute ns) = ("/" : Text) := by
  have hslashes : (absolute ns).takeWhile isSlash = [.scalar '/'] := by
    cases ns with
    | nil => rfl
    | cons n r =>
      have hn := h n List.mem_cons_self
      obtain ⟨c, t, rfl⟩ := List.exists_cons_of_ne_nil hn.ne_nil
      have hc : isSlash c = false := hn.noSlash c List.mem_cons_self
      obtain ⟨u, hu⟩ := ofNames_isPrefix [c :: t] r
      rw [ofNames_singleton, List.singleton_append] at hu
      rw [absolute, ← hu, List.takeWhile_cons_of_pos (by decide), List.cons_append,
        List.takeWhile_cons_of_neg (by simp [hc])]
  unfold root
  rw [hslashes]
  rfl

/-- A path of names is tidy. -/
theorem tidy_absolute {ns : List Text} (h : ∀ n ∈ ns, IsName n) :
    tidy (absolute ns) = absolute ns := by
  unfold tidy
  rw [root_absolute h, names_absolute, flatMap_names h]
  rfl

end Path

namespace Utf8

/-- A text is a name of a file if each of its points can stand in one. -/
theorem nameObstacle?_eq_none_iff {t : Text} :
    nameObstacle? t = none ↔ ∀ p ∈ t, (!isLone p || isEscapedByte p) = true := by
  rw [← List.dropWhile_eq_nil_iff]
  unfold nameObstacle?
  simp only [List.span_eq_takeWhile_dropWhile]
  generalize t.dropWhile (fun p => !isLone p || isEscapedByte p) = rest
  cases rest <;> simp

end Utf8

namespace Node

/-- A place is plain if it is given by names, and no link is on the way to it. -/
structure IsPlain (root : Node) (place : List Text) : Prop where
  /-- It is given by names. -/
  names : ∀ name ∈ place, Path.IsName name
  /-- No link is on the way, and it is none itself. -/
  noLink : ∀ above, above <+: place → ∀ target, root.at? above ≠ some (.link target)

namespace IsPlain

variable {root : Node} {place : List Text}

/-- What is on the way to a plain place is plain. -/
theorem of_isPrefix (h : root.IsPlain place) {above : List Text} (ha : above <+: place) :
    root.IsPlain above where
  names name hn := h.names name (ha.subset hn)
  noLink higher hh := h.noLink higher (hh.trans ha)

/-- What is in a plain place is plain, if it is no link. -/
theorem concat (h : root.IsPlain place) {name : Text} (hname : Path.IsName name)
    (hlink : ∀ target, root.at? (place ++ [name]) ≠ some (.link target)) :
    root.IsPlain (place ++ [name]) where
  names := List.forall_mem_append.mpr ⟨h.names, List.forall_mem_singleton.mpr hname⟩
  noLink above ha := by
    rcases List.prefix_concat_iff.mp ha with rfl | ha
    · exact hlink
    · exact h.noLink above ha

end IsPlain

/-- What is on the way down to a directory are directories. -/
theorem exists_directories_of_at? {n : Node} {name : Text} {r : List Text}
    {es : List (Text × Node)} (h : n.at? (name :: r) = some (.directory es)) :
    ∃ ks ls, n = .directory ks ∧ entry? (.directory ks) name = some (.directory ls) ∧
      at? (.directory ls) r = some (.directory es) := by
  obtain ⟨ks, k, rfl, hk, hr⟩ := exists_directory_of_at? h
  cases r with
  | nil =>
    cases hr
    exact ⟨ks, es, rfl, hk, rfl⟩
  | cons x r =>
    obtain ⟨ls, -, rfl, -, -⟩ := exists_directory_of_at? hr
    exact ⟨ks, ls, rfl, hk, hr⟩

/-- What is in a directory is one name further down. -/
theorem at?_concat {n : Node} {q : List Text} {es : List (Text × Node)} {name : Text}
    (h : n.at? q = some (.directory es)) :
    n.at? (q ++ [name]) = entry? (.directory es) name := by
  rw [at?_append, h, Option.bind_some, at?]
  exact Option.bind_fun_some _

end Node

namespace Disk

/-- A path is a name of a file if each of its points can stand in one. -/
theorem nameFault?_eq_none_iff {t : Text} : nameFault? t = none ↔
    ∀ p ∈ t, (!Utf8.isLone p || Utf8.isEscapedByte p) = true ∧ p.val ≠ 0 := by
  unfold nameFault?
  cases h : Utf8.nameObstacle? t with
  | some o =>
    refine ⟨fun hn => (nomatch hn), fun hall => ?_⟩
    cases h.symm.trans (Utf8.nameObstacle?_eq_none_iff.mpr fun p hp => (hall p hp).1)
  | none =>
    have hfine := Utf8.nameObstacle?_eq_none_iff.mp h
    simp only [ite_eq_right_iff, reduceCtorEq, imp_false, Bool.not_eq_true, List.any_eq_false,
      beq_iff_eq]
    exact ⟨fun hall p hp => ⟨hfine p hp, hall p hp⟩, fun hall p hp => (hall p hp).2⟩

/-- A path can be a name of a file if it goes on to one that can. -/
theorem nameFault?_of_isPrefix {s t : Text} (h : s <+: t) (ht : nameFault? t = none) :
    nameFault? s = none :=
  nameFault?_eq_none_iff.mpr fun p hp => nameFault?_eq_none_iff.mp ht p (h.subset hp)

section Ways

variable {root n : Node} {q below : List Text} {es : List (Text × Node)}

/-- Names that lead down through directories stay when a path is made plain. -/
theorem plainFrom_below (hq : root.at? q = some n) (hm : n.at? below = some (.directory es))
    (hup : Path.up ∉ below) {bound : Nat} (hbound : below.length < bound) (links : Links) :
    plainFrom root bound q below links = (q ++ below, true, links) := by
  obtain ⟨bound, rfl⟩ := Nat.exists_eq_add_one_of_ne_zero (Nat.ne_zero_of_lt hbound)
  -- There is no link and no step up on the way, so each step takes one name and one from the bound.
  induction below generalizing q n bound with
  | nil =>
    rw [List.append_nil]
    rfl
  | cons name r ih =>
    obtain ⟨ks, ls, rfl, hk, hr⟩ := Node.exists_directories_of_at? hm
    obtain ⟨hne, hup⟩ := not_or.mp (mt List.mem_cons.mpr hup)
    have hplace : root.at? (q ++ [name]) = some (.directory ls) := (Node.at?_concat hq).trans hk
    have hlink (target : Text) : root.at? (q ++ [name]) ≠ some (.link target) := by
      rw [hplace]
      simp
    have hbound : r.length < bound := Nat.lt_of_succ_lt_succ hbound
    obtain ⟨bound, rfl⟩ := Nat.exists_eq_add_one_of_ne_zero (Nat.ne_zero_of_lt hbound)
    rw [plainFrom_cons_of_ne_link (Ne.symm hne) hlink, ih hplace hr hup bound hbound,
      List.append_assoc]
    rfl

/-- Names are followed down through directories, unless one of them is too long. -/
theorem followWith_append_below {jump : List Text → List Text → Except FileDefect Reached}
    (hq : root.at? q = some n) (hm : n.at? below = some (.directory es)) (hup : Path.up ∉ below)
    (rest : List Text) : followWith root jump q (below ++ rest) =
      if below.any (nameLimit < byteCount ·) then .error .nameTooLong
      else followWith root jump (q ++ below) rest := by
  induction below generalizing q n with
  | nil => simp
  | cons name r ih =>
    obtain ⟨ks, ls, rfl, hk, hr⟩ := Node.exists_directories_of_at? hm
    obtain ⟨hne, hup⟩ := not_or.mp (mt List.mem_cons.mpr hup)
    have hplace : root.at? (q ++ [name]) = some (.directory ls) := (Node.at?_concat hq).trans hk
    rw [List.cons_append, followWith_cons hq, if_neg (by simpa using Ne.symm hne), List.any_cons]
    by_cases hlong : nameLimit < byteCount name
    · rw [if_pos hlong, if_pos (by simp [hlong])]
    · rw [if_neg hlong, hk]
      have hgoes := ih hplace hr hup
      rw [List.append_assoc, List.singleton_append] at hgoes
      simpa [hlong] using hgoes

/-- A plain place that names lead to is where they say. -/
theorem at?_of_followWith_isPlain {jump : List Text → List Text → Except FileDefect Reached}
    (h : root.IsPlain (q ++ below)) {place : List Text}
    (hn : followWith root jump q below = .ok (place, some n)) : root.at? (q ++ below) = some n := by
  induction below generalizing q with
  | nil =>
    rw [List.append_nil]
    simp only [followWith, Except.ok.injEq, Prod.mk.injEq] at hn
    exact hn.2
  | cons name r ih =>
    obtain ⟨es, hes⟩ := exists_directory_of_followWith hn
    have hne : name ≠ Path.up := (h.names name (by simp)).ne_up
    have happend : q ++ name :: r = q ++ [name] ++ r := by simp
    rw [followWith_cons hes, if_neg (by simpa using hne)] at hn
    split at hn
    · cases hn
    rw [happend] at h ⊢
    -- A link is ruled out by the place, so the walk goes on with a file or a directory.
    split at hn
    · split at hn <;> cases hn
    · rename_i target hl
      exact absurd ((Node.at?_concat hes).trans hl) (h.noLink _ (List.prefix_append ..) target)
    · exact ih h hn

/-- A property of places that holds of all places on the way to one, and of what is in one and no
link. -/
structure GoesDown (root : Node) (good : List Text → Prop) : Prop where
  /-- It holds of the places on the way. -/
  above : ∀ {place above : List Text}, above <+: place → good place → good above
  /-- It holds of what is in the place. -/
  down : ∀ {place : List Text} {name : Text}, good place → Path.IsName name →
    (∀ target, root.at? (place ++ [name]) ≠ some (.link target)) → good (place ++ [name])

/-- To be given by names is such a property. -/
theorem goesDown_names (root : Node) :
    GoesDown root fun place => ∀ name ∈ place, Path.IsName name where
  above ha h name hn := h name (ha.subset hn)
  down h hname _ := List.forall_mem_append.mpr ⟨h, List.forall_mem_singleton.mpr hname⟩

/-- To be plain is such a property. -/
theorem goesDown_isPlain (root : Node) : GoesDown root root.IsPlain where
  above ha h := h.of_isPrefix ha
  down h hname hlink := h.concat hname hlink

/-- Links that were followed lead to places with a property. -/
abbrev LeadTo (good : List Text → Prop) (links : Links) : Prop :=
  ∀ l ∈ links, ∀ known, l.2 = some known → good known

/-- Making a path plain leads to a place with such a property, from which names are left over only
if a circle of links is met. -/
theorem exists_of_plainFrom {good : List Text → Prop} (hg : GoesDown root good) (bound : Nat)
    {here rest place : List Text} {isPlain : Bool} {links links' : Links} (hhere : good here)
    (hrest : ∀ name ∈ rest, name = Path.up ∨ Path.IsName name) (hlinks : LeadTo good links)
    (h : plainFrom root bound here rest links = (place, isPlain, links')) :
    ∃ reached left, place = reached ++ left ∧ good reached ∧
      (∀ name ∈ left, name = Path.up ∨ Path.IsName name) ∧
      (isPlain = true → left = [] ∧ LeadTo good links') := by
  induction bound generalizing here rest links place isPlain links' with
  | zero =>
    cases h
    exact ⟨here, rest, rfl, hhere, hrest, by simp⟩
  | succ bound ih =>
    cases rest with
    | nil =>
      cases h
      exact ⟨here, [], (List.append_nil here).symm, hhere, by simp, fun _ => ⟨rfl, hlinks⟩⟩
    | cons name r =>
      have hleft := hrest
      obtain ⟨hname, hrest⟩ := List.forall_mem_cons.mp hrest
      -- A step up goes back to a place on the way; another name goes down, or where a link leads.
      by_cases hup : name = Path.up
      · rw [plainFrom, if_pos (by simpa using hup)] at h
        exact ih (hg.above (List.dropLast_prefix here) hhere) hrest hlinks h
      have hname := hname.resolve_left hup
      by_cases hl : ∃ target, root.at? (here ++ [name]) = some (.link target)
      · obtain ⟨target, hl⟩ := hl
        rw [plainFrom, if_neg (by simpa using hup)] at h
        simp only [hl] at h
        split at h
        · rename_i known hknown
          obtain ⟨l, hl, hknown⟩ := Option.map_eq_some_iff.mp hknown
          exact ih (hlinks l (List.mem_of_find?_eq_some hl) known hknown) hrest hlinks h
        · cases h
          exact ⟨here, name :: r, by simp, hhere, hleft, by simp⟩
        · have hstart : good (if Path.isAbsolute target then [] else here) := by
            split
            · exact hg.above List.nil_prefix hhere
            · exact hhere
          -- While the link is followed, it leads nowhere yet.
          have hlinks : LeadTo good ((here ++ [name], none) :: links) :=
            List.forall_mem_cons.mpr ⟨by simp, hlinks⟩
          split at h
          · rename_i reached links hreached
            obtain ⟨reached, left, rfl, hgood, -, hplain⟩ :=
              ih hstart (fun _ hn => Path.eq_up_or_isName hn) hlinks hreached
            obtain ⟨rfl, hlinks⟩ := hplain rfl
            rw [List.append_nil] at h
            refine ih hgood hrest (List.forall_mem_cons.mpr ⟨?_, hlinks⟩) h
            rintro known hknown
            cases hknown
            exact hgood
          · rename_i reached links hreached
            obtain ⟨reached, left, rfl, hgood, hleft, -⟩ :=
              ih hstart (fun _ hn => Path.eq_up_or_isName hn) hlinks hreached
            cases h
            exact ⟨reached, left ++ r, List.append_assoc .., hgood,
              List.forall_mem_append.mpr ⟨hleft, hrest⟩, by simp⟩
      · have hl := not_exists.mp hl
        rw [plainFrom_cons_of_ne_link hup hl] at h
        exact ih (hg.down hhere hname hl) hrest hlinks h

/-- Without steps up, the names that go on are left. -/
theorem mem_withoutUps {names : List Text} {name : Text} (h : name ∈ withoutUps names) :
    name ∈ names ∧ name ≠ Path.up := by
  have hfrom (names done : List Text) (hdone : name ∉ done) (h : name ∈ names.foldl
      (fun done n => if n == Path.up then done.dropLast else done ++ [n]) done) :
      name ∈ names ∧ name ≠ Path.up := by
    -- What is kept so far may only lose names, so a name that is in it at the end was taken on the
    -- way.
    induction names generalizing done with
    | nil => exact absurd h hdone
    | cons n r ih =>
      rw [List.foldl_cons] at h
      by_cases hname : name ∈ r ∧ name ≠ Path.up
      · exact ⟨List.mem_cons_of_mem n hname.1, hname.2⟩
      split at h
      · have hless : name ∉ done.dropLast := fun hn => hdone (List.dropLast_subset done hn)
        exact absurd (ih _ hless h) hname
      · rename_i hup
        have hn : name = n := by
          by_contra hne
          have hmore : name ∉ done ++ [n] := by simp [hdone, hne]
          exact hname (ih _ hmore h)
        subst hn
        exact ⟨List.mem_cons_self, by simpa using hup⟩
  exact hfrom names [] List.not_mem_nil h

end Ways

/-- A circle of links is met when a path is made plain. -/
def MeetsCircle (d : Disk) (path : Text) : Prop :=
  (plainFrom d.root (linkSteps d.root + (Path.names path).length + 1) (d.startOf path)
    (Path.names path) []).2.1 = false

instance (d : Disk) (path : Text) : Decidable (d.MeetsCircle path) :=
  inferInstanceAs (Decidable (_ = false))

section Paths

variable {d : Disk} {names : List Text} {es : List (Text × Node)}

/-- A path that goes straight down to a directory is plain already. -/
theorem plainNames_absolute (h : d.root.at? names = some (.directory es))
    (hnames : ∀ n ∈ names, Path.IsName n) (hfault : nameFault? (Path.absolute names) = none) :
    d.plainNames (Path.absolute names) = .ok names := by
  have hup : Path.up ∉ names := fun hn => (hnames _ hn).ne_up rfl
  have hstart : d.startOf (Path.absolute names) = [] := rfl
  have hbound : names.length < linkSteps d.root + names.length + 1 := by omega
  unfold plainNames
  rw [Path.tidy_absolute hnames, hfault, Path.names_absolute, Path.flatMap_names hnames, hstart]
  simp only [plainFrom_below (q := []) rfl h hup hbound []]
  rfl

/-- A path at which a file is read is a name of a file and not too long, and leads to the file. -/
theorem exists_follow_of_read {path : Text} {bytes : List UInt8} (h : d.read path = .ok bytes) :
    nameFault? path = none ∧ byteCount path ≤ pathLimit ∧
      ∃ q, follow d.root linkLimit (d.startOf path) (Path.names path) =
        .ok (q, some (.file bytes)) := by
  unfold read at h
  split at h
  · cases h
  rename_i hfault
  split at h
  · rename_i q content hl
    cases h
    unfold locate at hl
    split at hl
    · cases hl
    · rename_i hfits
      exact ⟨hfault, Nat.le_of_not_lt hfits, q, hl⟩
  all_goals cases h

/-- A path that goes straight down to a directory leads there, if a file is found below it. -/
theorem hasDirectory_absolute (h : d.root.at? names = some (.directory es))
    (hnames : ∀ n ∈ names, Path.IsName n) {place : Text}
    (hfile : d.hasFile (Path.below (Path.absolute names) place) = .ok true) :
    d.hasDirectory (Path.absolute names) = .ok true := by
  have hup : Path.up ∉ names := fun hn => (hnames _ hn).ne_up rfl
  have hstart (ns : List Text) : d.startOf (Path.absolute ns) = [] := rfl
  have hprefix := Path.isPrefix_below (Path.absolute names) place
  obtain ⟨bytes, hread⟩ := exists_read_of_hasFile hfile
  obtain ⟨hfault, hfits, q, hfollow⟩ := exists_follow_of_read hread
  rw [Path.below_absolute hnames, hstart, Path.names_absolute, List.flatMap_append,
    Path.flatMap_names hnames] at hfollow
  -- A name that is too long would keep the path below from leading to the file.
  have hshort : names.any (nameLimit < byteCount ·) = false := by
    by_contra hlong
    have hgoes : follow d.root linkLimit [] (names ++ [place].flatMap Path.names) = _ :=
      followWith_append_below rfl h hup _
    rw [if_pos (by simpa using hlong)] at hgoes
    cases hfollow.symm.trans hgoes
  have hfind : d.find? (Path.absolute names) = some (.directory es) := by
    have hgoes : follow d.root linkLimit [] names = .ok (names, some (.directory es)) :=
      (followWith_below rfl h rfl hup).trans (if_neg (by simp [hshort]))
    have hfits := Nat.not_lt.mpr ((byteCount_le_of_isPrefix hprefix).trans hfits)
    unfold find? locate
    rw [nameFault?_of_isPrefix hprefix hfault, hstart, Path.names_absolute,
      Path.flatMap_names hnames, if_neg hfits, hgoes]
    rfl
  exact hasDirectory_of_find? hfind

/-- A directory at a plain path is where the path says. -/
theorem at?_of_find?_absolute (h : d.root.IsPlain names) {n : Node}
    (hn : d.find? (Path.absolute names) = some n) : d.root.at? names = some n := by
  obtain ⟨q, hq⟩ := follow_of_find? hn
  rw [Path.flatMap_names h.names] at hq
  exact at?_of_followWith_isPlain (q := []) h hq

/-- The plain form of a path is a place with a property that goes down, and names that are left over
if a circle of links is met, without the steps up. -/
theorem exists_of_plainNames {good : List Text → Prop} (hg : GoesDown d.root good)
    (hcurrent : good d.current) {path : Text} (h : d.plainNames path = .ok names) :
    good names ∨ d.MeetsCircle path ∧ ∃ reached left, names = withoutUps (reached ++ left) ∧
      good reached ∧ ∀ name ∈ left, name = Path.up ∨ Path.IsName name := by
  have hstart : good (d.startOf path) := by
    unfold startOf
    split
    · exact hg.above List.nil_prefix hcurrent
    · exact hcurrent
  unfold plainNames at h
  unfold MeetsCircle
  split at h
  · cases h
  extract_lets names at h
  generalize hplain : plainFrom d.root (linkSteps d.root + (Path.names path).length + 1)
    (d.startOf path) (Path.names path) [] = end_ at h ⊢
  obtain ⟨place, isPlain, links⟩ := end_
  obtain ⟨reached, left, rfl, hgood, hleft, htrue⟩ :=
    exists_of_plainFrom hg _ hstart (fun _ hn => Path.eq_up_or_isName hn) (by simp) hplain
  -- Either nothing is left over, or a circle of links is met, and the rest is taken as it is
  -- written.
  cases isPlain with
  | true =>
    obtain ⟨rfl, -⟩ := htrue rfl
    cases h
    left
    rwa [List.append_nil]
  | false =>
    dsimp only at h
    split at h
    · cases h
    · cases h
      exact .inr ⟨rfl, reached, left, rfl, hgood, hleft⟩

/-- The plain form of a path is given by names. -/
theorem isName_of_plainNames (hcurrent : ∀ name ∈ d.current, Path.IsName name) {path : Text}
    (h : d.plainNames path = .ok names) : ∀ name ∈ names, Path.IsName name := by
  rcases exists_of_plainNames (goesDown_names d.root) hcurrent h with
    hnames | ⟨-, reached, left, rfl, hreached, hleft⟩
  · exact hnames
  · intro name hname
    obtain ⟨hmem, hup⟩ := mem_withoutUps hname
    rcases List.mem_append.mp hmem with hn | hn
    · exact hreached name hn
    · exact (hleft name hn).resolve_left hup

/-- The plain form of a path is plain, if no circle of links is met on the way. -/
theorem isPlain_of_plainNames (hcurrent : d.root.IsPlain d.current) {path : Text}
    (h : d.plainNames path = .ok names) (hcircle : ¬d.MeetsCircle path) : d.root.IsPlain names :=
  (exists_of_plainNames (goesDown_isPlain d.root) hcurrent h).resolve_right
    fun hmeets => hcircle hmeets.1

end Paths

end Disk

end SurfaceAudit
