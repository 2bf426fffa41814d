import SurfaceAudit.Proofs.LetterCase
import SurfaceAudit.Proofs.LinkResolution
import SurfaceAudit.Proofs.Reach
import SurfaceAudit.Report.Document
import SurfaceAudit.Report.Output

/-!
# Where reports may be written

A report may be written to a path that leads to a safe place (`Report.IsSafe`): it is in no
directory of the system, its parent is there, and it is no program that is there. Nothing is written
to any other path within reach (`refused_places_are_dangerous`). A place to which a path leads has
no link on the way, so that what is at its path is what the tree has there (`Disk.look_absolute`).
-/

namespace SurfaceAudit

namespace Text

variable {sep : Point → Bool} {t field : Text} {p : Point}

/-- What is in a field is in the text. -/
theorem mem_of_mem_fields (h : field ∈ fields sep t) (hp : p ∈ field) : p ∈ t := by
  have hfrom (t field : Text) : ∀ f ∈ fieldsFrom sep t field [], ∀ p ∈ f, p ∈ field ∨ p ∈ t := by
    -- The field that is being read is an argument of the function, so it is part of what the
    -- induction is about.
    induction t generalizing field with
    | nil => simp [fieldsFrom]
    | cons c r ih =>
      intro f hf p hp
      rw [fieldsFrom] at hf
      split at hf
      · rw [fieldsFrom_done] at hf
        rcases List.mem_append.mp hf with hf | hf
        · have hfield : f = field.reverse := by simpa using hf
          exact .inl (List.mem_reverse.mp (hfield ▸ hp))
        · rcases ih [] f hf p hp with h | h
          · exact absurd h List.not_mem_nil
          · exact .inr (List.mem_cons_of_mem c h)
      · rcases ih (c :: field) f hf p hp with h | h
        · rcases List.mem_cons.mp h with rfl | h
          · exact .inr List.mem_cons_self
          · exact .inl h
        · exact .inr (List.mem_cons_of_mem c h)
  exact (hfrom t [] field h p hp).resolve_left List.not_mem_nil

/-- What is in a text is a separator, or in one of its fields. -/
theorem sep_or_mem_fields (hp : p ∈ t) : sep p = true ∨ ∃ field ∈ fields sep t, p ∈ field := by
  have hfrom (t field : Text) (h : p ∈ field ∨ p ∈ t) :
      sep p = true ∨ ∃ f ∈ fieldsFrom sep t field [], p ∈ f := by
    -- As above the induction carries the field that is being read, here as a place where the point
    -- may be.
    induction t generalizing field with
    | nil =>
      have hfield := h.resolve_right List.not_mem_nil
      exact .inr ⟨field.reverse, by simp [fieldsFrom], List.mem_reverse.mpr hfield⟩
    | cons c r ih =>
      rw [fieldsFrom]
      split
      · rename_i hc
        rw [fieldsFrom_done]
        rcases h with h | h
        · exact .inr ⟨field.reverse, by simp, List.mem_reverse.mpr h⟩
        · rcases List.mem_cons.mp h with rfl | h
          · exact .inl hc
          · refine (ih [] (.inr h)).imp_right ?_
            rintro ⟨f, hf, hpf⟩
            exact ⟨f, List.mem_append_right _ hf, hpf⟩
      · refine ih (c :: field) ?_
        rcases h with h | h
        · exact .inl (List.mem_cons_of_mem c h)
        · rcases List.mem_cons.mp h with rfl | h
          · exact .inl List.mem_cons_self
          · exact .inr h
  exact hfrom t [] (.inr hp)

end Text

namespace Path

variable {ns : List Text} {p : Point}

/-- What is in a path is a slash, or in one of its names. -/
theorem mem_ofNames (h : p ∈ ofNames ns) : p = .scalar '/' ∨ ∃ name ∈ ns, p ∈ name := by
  induction ns with
  | nil => cases h
  | cons n r ih =>
    cases r with
    | nil =>
      rw [ofNames_singleton] at h
      exact .inr ⟨n, List.mem_cons_self, h⟩
    | cons m r =>
      rw [ofNames_cons_cons] at h
      rcases List.mem_append.mp h with h | h
      · exact .inr ⟨n, List.mem_cons_self, h⟩
      · rcases List.mem_cons.mp h with h | h
        · exact .inl h
        · refine (ih h).imp_right ?_
          rintro ⟨name, hn, hp⟩
          exact ⟨name, List.mem_cons_of_mem n hn, hp⟩

/-- What is in a name is in a path with that name. -/
theorem mem_ofNames_of_mem {name : Text} (hn : name ∈ ns) (hp : p ∈ name) : p ∈ ofNames ns := by
  induction ns with
  | nil => cases hn
  | cons n r ih =>
    cases r with
    | nil =>
      rw [ofNames_singleton]
      exact List.mem_singleton.mp hn ▸ hp
    | cons m r =>
      rw [ofNames_cons_cons]
      rcases List.mem_cons.mp hn with rfl | hn
      · exact List.mem_append_left _ hp
      · exact List.mem_append_right _ (List.mem_cons_of_mem _ (ih hn))

end Path

/-- What is no link at a place is no link to any path. -/
theorem Node.at?_ne_link {root : Node} {q : List Text}
    (h : ((root.at? q).map Node.isLink).getD false = false) (target : Text) :
    root.at? q ≠ some (.link target) := by
  intro hl
  rw [hl] at h
  cases h

namespace Disk

/-- An absolute path can be a name of a file if its names can. -/
theorem nameFault?_absolute {ns : List Text} (h : ∀ name ∈ ns, nameFault? name = none) :
    nameFault? (Path.absolute ns) = none := by
  refine nameFault?_eq_none_iff.mpr fun p hp => ?_
  rcases List.mem_cons.mp hp with rfl | hp
  · decide
  · rcases Path.mem_ofNames hp with rfl | ⟨name, hn, hp⟩
    · decide
    · exact nameFault?_eq_none_iff.mp (h name hn) p hp

/-- The end of a path can be a name of a file if the path can. -/
theorem nameFault?_of_isSuffix {s t : Text} (h : s <:+ t) (ht : nameFault? t = none) :
    nameFault? s = none :=
  nameFault?_eq_none_iff.mpr fun p hp => nameFault?_eq_none_iff.mp ht p (h.subset hp)

/-- The names of a path can be names of files if it can. -/
theorem nameFault?_of_mem_names {t name : Text} (h : nameFault? t = none)
    (hn : name ∈ Path.names t) : nameFault? name = none :=
  nameFault?_eq_none_iff.mpr fun p hp => nameFault?_eq_none_iff.mp h p
    (Text.mem_of_mem_fields (List.mem_of_mem_filter hn) hp)

/-- What does not count in a path does not keep it from being a name of a file. -/
theorem nameFault?_tidy {t : Text} : nameFault? (Path.tidy t) = none ↔ nameFault? t = none := by
  constructor
  · intro h
    refine nameFault?_eq_none_iff.mpr fun p hp => ?_
    -- What a path loses when it is tidied is slashes and dots, and neither is a fault in a name.
    have hcases : Path.isSlash p = true ∨ ∃ field ∈ Text.fields Path.isSlash t, p ∈ field :=
      Text.sep_or_mem_fields hp
    rcases hcases with hslash | ⟨field, hf, hpf⟩
    · rw [show p = .scalar '/' by simpa [Path.isSlash] using hslash]
      decide
    · by_cases hdot : field = ("." : Text)
      · rw [hdot] at hpf
        rw [List.mem_singleton.mp hpf]
        decide
      · have hname : field ∈ Path.names t :=
          List.mem_filter.mpr ⟨hf, by simpa [hdot] using List.ne_nil_of_mem hpf⟩
        have hnames : p ∈ Path.ofNames (Path.names t) := Path.mem_ofNames_of_mem hname hpf
        refine nameFault?_eq_none_iff.mp h p ?_
        unfold Path.tidy
        extract_lets s
        have hs : p ∈ s := List.mem_append_right _ hnames
        rwa [if_neg (by simpa using List.ne_nil_of_mem hs)]
  · intro h
    have hnames : nameFault? (Path.ofNames (Path.names t)) = none :=
      nameFault?_of_isSuffix (List.suffix_cons _ _)
        (nameFault?_absolute fun name hn => nameFault?_of_mem_names h hn)
    refine nameFault?_eq_none_iff.mpr fun p hp => ?_
    -- What it has afterwards is the names it had, and slashes in front and between.
    unfold Path.tidy at hp
    extract_lets s at hp
    split at hp
    · rw [List.mem_singleton.mp hp]
      decide
    · rcases List.mem_append.mp hp with hp | hp
      · have hslash : p = .scalar '/' := by
          unfold Path.root at hp
          split at hp
          · cases hp
          · simpa [Text.ofString] using hp
          · simpa [Text.ofString] using hp
        rw [hslash]
        decide
      · exact nameFault?_eq_none_iff.mp hnames p hp

/-- What holds of every disk there is: the current directory has a plain place with names that files
can have, and so have the places that links lead to. -/
structure IsReal (d : Disk) : Prop where
  /-- The current directory has a plain place. -/
  current : d.root.IsPlain d.current
  /-- The current directory has names that files can have. -/
  currentNamed : ∀ name ∈ d.current, nameFault? name = none
  /-- The target of a link is a path that a file can have. -/
  linksNamed : ∀ place target, d.root.at? place = some (.link target) → nameFault? target = none

/-- Neither a name nor the path of them is too long to be looked up. -/
structure Fits (names : List Text) : Prop where
  /-- No name is too long. -/
  short : ∀ name ∈ names, byteCount name ≤ nameLimit
  /-- The path is not too long. -/
  path : byteCount (Path.absolute names) ≤ pathLimit

section Plain

variable {root : Node} {q below : List Text}

/-- A plain place is followed to what is there, or to nothing if something is missing on the way. -/
theorem followWith_isPlain (jump : List Text → List Text → Except FileDefect Reached)
    (h : root.IsPlain (q ++ below)) (hshort : ∀ name ∈ below, byteCount name ≤ nameLimit) :
    followWith root jump q below = .ok (q ++ below, root.at? (q ++ below)) ∨
      (followWith root jump q below = .error .missing ∨
        followWith root jump q below = .error .throughFile) ∧ root.at? (q ++ below) = none := by
  -- A plain place has no link on its way, so each step goes down by one name and `jump` is never
  -- asked.
  induction below generalizing q with
  | nil => exact .inl (by rw [List.append_nil, followWith])
  | cons name r ih =>
    obtain ⟨hname, hshort⟩ := List.forall_mem_cons.mp hshort
    have hne : name ≠ Path.up := (h.names name (by simp)).ne_up
    have happend : q ++ name :: r = q ++ [name] ++ r := by simp
    have hat : root.at? (q ++ name :: r) = (root.at? q).bind (·.at? (name :: r)) :=
      Node.at?_append root q (name :: r)
    cases hq : root.at? q with
    | none =>
      rw [hq] at hat
      exact .inr ⟨.inl (by rw [followWith, hq]), hat⟩
    | some n =>
      rw [hq, Option.bind_some] at hat
      cases n with
      | file content => exact .inr ⟨.inr (by rw [followWith, hq]), hat⟩
      | link target => exact .inr ⟨.inr (by rw [followWith, hq]), hat⟩
      | directory es =>
        rw [followWith_cons hq, if_neg (by simpa using hne), if_neg (Nat.not_lt.mpr hname)]
        have hentry : root.at? (q ++ [name]) = Node.entry? (.directory es) name :=
          Node.at?_concat hq
        rw [happend] at h ⊢
        cases hk : Node.entry? (.directory es) name with
        | none =>
          have hnone : root.at? (q ++ [name] ++ r) = none := by
            rw [Node.at?_append, hentry, hk]
            rfl
          rw [hnone]
          cases r with
          | nil => exact .inl (by simp)
          | cons x r => exact .inr ⟨.inl rfl, rfl⟩
        | some k =>
          cases k with
          | link target =>
            exact absurd (hentry.trans hk) (h.noLink _ (List.prefix_append ..) target)
          | file content => exact ih h hshort
          | directory ks => exact ih h hshort

end Plain

/-- What is at the path of a plain place is what the tree has there. -/
theorem look_absolute {d : Disk} {names : List Text} (h : d.root.IsPlain names)
    (hnamed : ∀ name ∈ names, nameFault? name = none) (hfits : Fits names) :
    d.look (Path.absolute names) = .ok (d.root.at? names) := by
  have hfault := nameFault?_absolute hnamed
  have hlocate : d.locate (Path.absolute names) =
      followWith d.root (follow d.root (linkLimit - 1)) [] names := by
    unfold locate
    rw [if_neg (Nat.not_lt.mpr hfits.path), Path.names_absolute, Path.flatMap_names h.names]
    rfl
  unfold look find?
  rw [hfault, hlocate]
  rcases followWith_isPlain (q := []) (follow d.root (linkLimit - 1)) h hfits.short with
    hgoes | ⟨hgoes | hgoes, hnone⟩
  · rw [hgoes]
    rfl
  · rw [hgoes]
    exact congrArg _ hnone.symm
  · rw [hgoes]
    exact congrArg _ hnone.symm

end Disk

namespace Report

/-- The last name of a place has the suffix of a program or script, in any letter case. -/
def IsProgram (names : List Text) : Prop :=
  ∃ s ∈ programSuffixes,
    List.Forall₂ Point.IsCaseOf (Path.suffix (names.getLast?.getD [])) s

/-- A place is safe for a report: it is not in a directory of the system, its parent is there, and
if something is there already, it is no program or script. -/
structure IsSafe (d : Disk) (names : List Text) : Prop where
  /-- It is not in a directory of the system. -/
  noSystem : ∀ s ∈ systemDirectories, ¬s <+: names
  /-- Its parent is there. -/
  parent : (d.root.at? names.dropLast).isSome = true
  /-- It is no program that is there. -/
  noProgram : (d.root.at? names).isSome = true → ¬IsProgram names

/-- Looking for a place meets no path that is too long: its parent is always looked up, and the
place itself if it has the suffix of a program. -/
structure CanBeLookedUp (names : List Text) : Prop where
  /-- The parent can be looked up. -/
  parent : Disk.Fits names.dropLast
  /-- A place with the suffix of a program can be. -/
  program : IsProgram names → Disk.Fits names

/-- The suffixes of programs tell the programs in any letter case. -/
theorem contains_programSuffixes_iff {names : List Text} :
    programSuffixes.contains (Path.suffix (names.getLast?.getD [])).lower = true ↔
      IsProgram names := by
  have hsmall : ∀ s ∈ programSuffixes, ∀ q ∈ s, q.isOwnSmall = true := by decide
  rw [List.contains_iff_mem]
  constructor
  · intro h
    exact ⟨_, h, (Text.lower_eq_iff (hsmall _ h) _).mp rfl⟩
  · rintro ⟨s, hs, hcase⟩
    rwa [(Text.lower_eq_iff (hsmall s hs) _).mpr hcase]

/-- A path with a plain form is checked in three steps: it is not in a directory of the system, its
parent is there, and it is no program that is there. -/
theorem place_eq {d : Disk} {path : Text} {names : List Text} (hpath : path ≠ [])
    (hplain : d.plainNames path = .ok names) : place d path =
      match systemDirectories.find? (·.isPrefixOf names) with
      | some s => .error (.output (.sensitive (Path.absolute s)))
      | none => d.contains (Path.absolute names.dropLast) >>= fun isThere =>
        if !isThere then .error (.output (.noParent (Path.absolute names.dropLast)))
        else if programSuffixes.contains (Path.suffix (names.getLast?.getD [])).lower then
          d.contains (Path.absolute names) >>= fun isThere =>
            if isThere then .error (.output (.executable (Path.absolute names)))
            else .ok (Path.absolute names)
        else .ok (Path.absolute names) := by
  unfold place
  rw [if_neg (by simpa using hpath), hplain]
  simp only [bind, Except.bind, pure, Except.pure]
  cases systemDirectories.find? (·.isPrefixOf names) with
  | some s => rfl
  | none =>
    cases d.contains (Path.absolute names.dropLast) with
    | error f => rfl
    | ok isThere =>
      cases isThere with
      | false => rfl
      | true =>
        cases programSuffixes.contains (Path.suffix (names.getLast?.getD [])).lower with
        | false => rfl
        | true =>
          cases d.contains (Path.absolute names) with
          | error f => rfl
          | ok isThere => cases isThere <;> rfl

/-- A path with a plain form is a place for a report if the form is safe, and is refused if not. -/
theorem place_cases {d : Disk} {path : Text} {names : List Text} (hpath : path ≠ [])
    (hplain : d.plainNames path = .ok names) (hroot : d.root.IsPlain names)
    (hnamed : ∀ name ∈ names, Disk.nameFault? name = none) (hlook : CanBeLookedUp names) :
    IsSafe d names ∧ place d path = .ok (Path.absolute names) ∨
      ¬IsSafe d names ∧ ∃ defect, place d path = .error (.output defect) := by
  have hparent : d.contains (Path.absolute names.dropLast) =
      .ok (d.root.at? names.dropLast).isSome := by
    have habove := List.dropLast_prefix names
    rw [Disk.contains, Disk.look_absolute (hroot.of_isPrefix habove)
      (fun name hn => hnamed name (habove.subset hn)) hlook.parent]
    rfl
  have hself (hprogram : IsProgram names) :
      d.contains (Path.absolute names) = .ok (d.root.at? names).isSome := by
    rw [Disk.contains, Disk.look_absolute hroot hnamed (hlook.program hprogram)]
    rfl
  -- The three checks are the three fields of what is safe, in the order in which they are made; the
  -- first that fails gives the refusal.
  rw [place_eq hpath hplain]
  cases hsystem : systemDirectories.find? (·.isPrefixOf names) with
  | some s =>
    have hs : s <+: names := List.isPrefixOf_iff_prefix.mp (by simpa using List.find?_some hsystem)
    have hin : ¬IsSafe d names := fun hsafe =>
      hsafe.noSystem s (List.mem_of_find?_eq_some hsystem) hs
    exact .inr ⟨hin, .sensitive (Path.absolute s), rfl⟩
  | none =>
    have hnoSystem : ∀ s ∈ systemDirectories, ¬s <+: names := fun s hs habove =>
      List.find?_eq_none.mp hsystem s hs (List.isPrefixOf_iff_prefix.mpr habove)
    dsimp only
    rw [hparent]
    cases hthere : (d.root.at? names.dropLast).isSome with
    | false =>
      have horphan : ¬IsSafe d names := fun hsafe => by
        rw [hsafe.parent] at hthere
        cases hthere
      exact .inr ⟨horphan, .noParent (Path.absolute names.dropLast), rfl⟩
    | true =>
      by_cases hprogram : IsProgram names
      · rw [contains_programSuffixes_iff.mpr hprogram, hself hprogram]
        cases hexists : (d.root.at? names).isSome with
        | true =>
          have hthreat : ¬IsSafe d names := fun hsafe => hsafe.noProgram hexists hprogram
          exact .inr ⟨hthreat, .executable (Path.absolute names), rfl⟩
        | false =>
          have hnew : (d.root.at? names).isSome = true → ¬IsProgram names := fun h => by
            rw [h] at hexists
            cases hexists
          exact .inl ⟨⟨hnoSystem, hthere, hnew⟩, rfl⟩
      · rw [eq_false_of_ne_true (mt contains_programSuffixes_iff.mp hprogram)]
        exact .inl ⟨⟨hnoSystem, hthere, fun _ => hprogram⟩, rfl⟩

/-- A path leads to one place, whose names are names that files can have, if its own are. -/
theorem exists_plain {d : Disk} (hd : d.IsReal) (hcircles : d.root.HasNoCircles) {path : Text}
    (hname : Disk.nameFault? path = none) :
    ∃ names, d.root.Resolves (d.startOf path) (Path.names path) names ∧
      d.plainNames path = .ok names ∧ d.root.IsPlain names ∧
      ∀ name ∈ names, Disk.nameFault? name = none := by
  obtain ⟨names, hnames⟩ := hcircles.exists_resolves (d.startOf path) (Path.names path)
  have hplain := Disk.plainNames_of_resolves (Disk.nameFault?_tidy.mpr hname) hnames
  have hstart : ∀ name ∈ d.startOf path, Disk.nameFault? name = none := by
    unfold Disk.startOf
    split
    · exact fun name hn => absurd hn List.not_mem_nil
    · exact hd.currentNamed
  obtain ⟨depth, hdepth⟩ := id hnames
  refine ⟨names, hnames, hplain, Disk.isPlain_of_plainNames hd.current hplain
    (Disk.not_meetsCircle_of_resolves hnames), hdepth.forall_mem ?_ hstart ?_⟩
  · exact fun q target hl name hn => Disk.nameFault?_of_mem_names (hd.linksNamed q target hl) hn
  · exact fun name hn => Disk.nameFault?_of_mem_names hname hn

/-- A path that no file can have is refused. -/
theorem place_of_nameFault? {d : Disk} {path : Text} {f : Fault} (hpath : path ≠ [])
    (h : Disk.nameFault? path = some f) :
    ∃ f, place d path = .error f ∧ f.isAboutInput = true := by
  cases htidy : Disk.nameFault? (Path.tidy path) with
  | none =>
    rw [Disk.nameFault?_tidy.mp htidy] at h
    cases h
  | some f =>
    have hplain : d.plainNames path = .error f := by rw [Disk.plainNames, htidy]
    refine ⟨f, ?_, ?_⟩
    · unfold place
      rw [if_neg (by simpa using hpath), hplain]
      rfl
    · rcases Disk.eq_of_nameFault? htidy with rfl | ⟨o, rfl⟩ <;> rfl

/-- Nothing is written to a path, by any of the ways to write a report, and all of them fail with a
fault that is about the path. A document is made before its path is looked at, so that it may fail
with a fault of its own. -/
structure Refuses (d : Disk) (path : Text) (f : Fault) : Prop where
  /-- The fault is about the path. -/
  isAboutInput : f.isAboutInput = true
  /-- The table of a result is not written. -/
  table : ∀ r, writeTable d r path = (.error f, d)
  /-- The table of a sweep is not written. -/
  sweepTable : ∀ rs, writeSweepTable d rs path = (.error f, d)
  /-- The report on a result is not written. -/
  document : ∀ c time r plugin, writeDocument d (Report.document c time r plugin) path =
    (Report.document c time r plugin >>= fun _ => .error f, d)
  /-- The report on a sweep is not written. -/
  sweepDocument : ∀ c time es, writeDocument d (Report.sweepDocument c time es) path =
    (Report.sweepDocument c time es >>= fun _ => .error f, d)

/-- Without a place for it, nothing is written. -/
theorem refuses_of_place {d : Disk} {path : Text} {f : Fault} (hpath : path ≠ [])
    (h : place d path = .error f) (hf : f.isAboutInput = true) : Refuses d path f := by
  have hwrite (draft : Draft) : writeTo d path draft = (.error f, d) := by rw [writeTo, h]
  have hempty : ¬path.isEmpty = true := by simpa using hpath
  -- A document is made before the path is looked at, so a fault in making it comes first.
  have hdocument (document : Attempt Value) :
      writeDocument d document path = (document >>= fun _ => .error f, d) := by
    unfold writeDocument
    cases document with
    | error g => rfl
    | ok v =>
      dsimp only
      rw [if_neg hempty, hwrite]
      rfl
  exact
    { isAboutInput := hf
      table := fun r => by rw [writeTable, if_neg hempty, hwrite]
      sweepTable := fun rs => by rw [writeSweepTable, if_neg hempty, hwrite]
      document := fun _ _ _ _ => hdocument _
      sweepDocument := fun _ _ _ => hdocument _ }

end Report

/-- A report may be written to a path within reach exactly if files can have the path and it leads
to a place that is safe: not in a directory of the system, with a parent that is there, and no
program or script that is there. The answer is the path of the place. With any other path nothing is
written, and the fault is about the path. On the way nothing may be too long to be looked up. -/
theorem refused_places_are_dangerous {d : Disk} (hd : d.IsReal)
    (hcircles : d.root.HasNoCircles) (path : Text)
    (hlook : ∀ names, d.root.Resolves (d.startOf path) (Path.names path) names →
      Report.CanBeLookedUp names) :
    d.IsPassable path →
    (∀ plain, Report.place d path = .ok plain ↔ path ≠ [] ∧ Disk.nameFault? path = none ∧
      ∃ names, d.root.Resolves (d.startOf path) (Path.names path) names ∧
        Report.IsSafe d names ∧ plain = Path.absolute names) ∧
    ∀ f, Report.place d path = .error f → path ≠ [] → Report.Refuses d path f := by
  intro _
  by_cases hpath : path = []
  · subst hpath
    exact ⟨fun plain => ⟨fun h => (nomatch h), fun h => absurd rfl h.1⟩, fun _ _ h => absurd rfl h⟩
  cases hname : Disk.nameFault? path with
  | some g =>
    obtain ⟨f, hf, habout⟩ := Report.place_of_nameFault? hpath hname
    refine ⟨fun plain => ⟨fun h => ?_, fun h => absurd h.2.1 (by simp)⟩, fun f' hf' _ => ?_⟩
    · cases hf.symm.trans h
    · cases hf.symm.trans hf'
      exact Report.refuses_of_place hpath hf habout
  | none =>
    -- A path that files can have leads to one place, and only the form of that place is checked.
    obtain ⟨names, hnames, hplain, hroot, hnamed⟩ := Report.exists_plain hd hcircles hname
    rcases Report.place_cases hpath hplain hroot hnamed (hlook names hnames) with
      ⟨hsafe, hplace⟩ | ⟨hdanger, defect, hplace⟩
    · refine ⟨fun plain => ⟨fun h => ?_, ?_⟩, fun f hf _ => ?_⟩
      · cases hplace.symm.trans h
        exact ⟨hpath, rfl, names, hnames, hsafe, rfl⟩
      · rintro ⟨-, -, names', hnames', -, rfl⟩
        rw [hnames'.unique hnames, hplace]
      · cases hplace.symm.trans hf
    · refine ⟨fun plain => ⟨fun h => ?_, ?_⟩, fun f hf _ => ?_⟩
      · cases hplace.symm.trans h
      · rintro ⟨-, -, names', hnames', hsafe, -⟩
        exact absurd (hnames'.unique hnames ▸ hsafe) hdanger
      · cases hplace.symm.trans hf
        exact Report.refuses_of_place hpath hplace rfl

/-- A disk with a link to a directory two levels down, in which there is a script. -/
def attic : Disk where
  root := .directory [("w", .directory
    [("a", .link "b/c"), ("b", .directory [("c", .directory [("run.PY", .file [])])])])]
  current := ["w"]

namespace Attic

/-- The link leads two levels down. -/
theorem resolves_link : attic.root.ResolvesIn 0 ["w"] ["b", "c"] ["w", "b", "c"] :=
  .down (by decide) (Node.at?_ne_link (by decide)) <|
    .down (by decide) (Node.at?_ne_link (by decide)) <| .done 0 _

/-- There is only one link. -/
theorem links_eq : Disk.linksFrom [] attic.root =
    ([(["w", "a"], "b/c")] : List (List Text × Text)) := rfl

/-- The link forms no circle. -/
theorem hasNoCircles : attic.root.HasNoCircles := by
  refine Disk.hasNoCircles_of_linksFrom ?_
  rw [links_eq, List.forall_mem_singleton]
  exact ⟨_, 0, resolves_link⟩

/-- The disk is as disks are. -/
theorem isReal : attic.IsReal where
  current := by
    have hroot : attic.root.IsPlain [] := ⟨by simp, fun above ha => by
      rw [List.prefix_nil.mp ha]
      exact Node.at?_ne_link (by decide)⟩
    exact hroot.concat (by decide) (Node.at?_ne_link (by decide))
  currentNamed := by decide
  linksNamed place target h := by
    have hmem : ([] ++ place, target) ∈ Disk.linksFrom [] attic.root := Disk.mem_linksFrom h
    rw [links_eq, List.mem_singleton, Prod.mk.injEq] at hmem
    rw [hmem.2]
    decide

/-- A name is put below the place that the link leads to, and a step up goes back from there. -/
theorem resolves_new : attic.root.Resolves ["w"] ["a", "..", "new.csv"] ["w", "b", "new.csv"] :=
  ⟨1, .link (by decide) rfl resolves_link <| .up <|
    .down (by decide) (Node.at?_ne_link (by decide)) <| .done 1 _⟩

/-- The script is below the link. -/
theorem resolves_script : attic.root.Resolves ["w"] ["a", "run.PY"] ["w", "b", "c", "run.PY"] :=
  ⟨1, .link (by decide) rfl resolves_link <|
    .down (by decide) (Node.at?_ne_link (by decide)) <| .done 1 _⟩

/-- A path in the current directory whose first point is half of a pair. -/
def halved : Text := .surrogate (Fin.last 0x7FF) :: (".csv" : Text)

end Attic

/-- A report may be written beside the directory that the link leads to, and it may not be written
over the script in it, whatever the case of the letters in its suffix. -/
theorem refused_places_are_dangerous_attic : attic.IsReal ∧ attic.root.HasNoCircles ∧
    attic.IsPassable "a/../new.csv" ∧ attic.IsPassable "a/run.PY" ∧
    Report.place attic "a/../new.csv" = .ok "/w/b/new.csv" ∧
    Report.Refuses attic "a/run.PY" (.output (.executable "/w/b/c/run.PY")) := by
  have hpassable : attic.IsPassable "a/../new.csv" := by decide +kernel
  have hpassable' : attic.IsPassable "a/run.PY" := by decide +kernel
  have hnew := refused_places_are_dangerous Attic.isReal Attic.hasNoCircles "a/../new.csv" (by
    intro names hnames
    rw [hnames.unique Attic.resolves_new]
    exact ⟨⟨by decide, by decide⟩, fun _ => ⟨by decide, by decide⟩⟩) hpassable
  have hscript := refused_places_are_dangerous Attic.isReal Attic.hasNoCircles "a/run.PY" (by
    intro names hnames
    rw [hnames.unique Attic.resolves_script]
    exact ⟨⟨by decide, by decide⟩, fun _ => ⟨by decide, by decide⟩⟩) hpassable'
  refine ⟨Attic.isReal, Attic.hasNoCircles, hpassable, hpassable', ?_, ?_⟩
  · refine (hnew.1 _).mpr ⟨by decide, by decide, _, Attic.resolves_new, ⟨?_, rfl, ?_⟩, rfl⟩
    · decide
    · intro h
      cases h
  · exact hscript.2 _ (by decide +kernel) (by decide)

/-- A path that no file can have is refused, although nothing is wrong with where it leads. -/
theorem unnameable_path_refused : Attic.halved ≠ [] ∧ (∀ p ∈ Attic.halved, p.val ≠ 0) ∧
    attic.root.HasNoCircles ∧
    attic.root.Resolves (attic.startOf Attic.halved) (Path.names Attic.halved)
      ["w", Attic.halved] ∧
    Report.IsSafe attic ["w", Attic.halved] ∧
    Report.place attic Attic.halved = .error (.unencodable ⟨0, 1, 0xDFFF⟩) := by
  refine ⟨by decide, by decide, Attic.hasNoCircles, ?_, ⟨by decide, rfl, ?_⟩, by decide +kernel⟩
  · exact ⟨0, .down (by decide) (Node.at?_ne_link (by decide)) <| .done 0 _⟩
  · intro h
    cases h

end SurfaceAudit
