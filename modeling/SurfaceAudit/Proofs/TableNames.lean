import SurfaceAudit.Proofs.OutputPlaces
import SurfaceAudit.Proofs.Tables

/-!
# Where a table without a path is written

Without a path, the name of the plugin gives the name of the file for its table. A plugin may call
itself what it likes, and the name is resolved as any path is. So the table is in the current
directory exactly if the name leads there (`table_in_place_iff`): a name without slashes does, and
one with slashes or steps up may lead anywhere. Wherever it leads, the file there is the only one
that is written (`Disk.writesOnly_of_write`).
-/

namespace SurfaceAudit

namespace Node

/-- What is at a place stays, unless it is a directory, which stays a directory. -/
def Stays (before after : Option Node) : Prop :=
  after = before ∨ ∃ es es', before = some (.directory es) ∧ after = some (.directory es')

/-- Below a file there is nothing. -/
theorem at?_of_isFile {n : Node} (h : n.isFile = true) {q : List Text} (hq : q ≠ []) :
    n.at? q = none := by
  obtain ⟨name, r, rfl⟩ := List.exists_cons_of_ne_nil hq
  cases n with
  | file content => rfl
  | link target => cases h
  | directory es => cases h

/-- A tree with a directory in it is a directory. -/
theorem isDirectory_of_at? {n : Node} {q : List Text} {es : List (Text × Node)}
    (h : n.at? q = some (.directory es)) : n.isDirectory = true := by
  obtain ⟨⟨ks, rfl⟩, -⟩ := exists_directory_above h
  rfl

/-- If a file is put into a directory, to a place where at most a file is, everything else stays. -/
theorem stays_put (content : List UInt8) {root : Node} {above q : List Text} {name : Text}
    {es : List (Text × Node)} (hdir : root.at? above = some (.directory es))
    (hfree : ∀ k, root.at? (above ++ [name]) = some k → k.isFile = true)
    (hq : q ≠ above ++ [name]) :
    Stays (root.at? q) ((put (.file content) (above ++ [name]) root).at? q) := by
  -- On the way to the directory all are directories, and what is beside the way is not touched.
  induction above generalizing root q with
  | nil =>
    obtain rfl : root = .directory es := Option.some.inj hdir
    cases q with
    | nil => exact .inr ⟨es, _, rfl, rfl⟩
    | cons x r =>
      refine .inl ?_
      rw [List.nil_append, put, at?, entry?_putEntry, at?]
      by_cases hx : name = x
      · subst hx
        have hr : r ≠ [] := fun hr => hq (by rw [hr, List.nil_append])
        -- There was nothing below the place, and there is nothing.
        have hbelow (k : Node) (hk : k.isFile = true) : k.at? r = none := at?_of_isFile hk hr
        rw [if_pos rfl]
        cases hentry : entry? (.directory es) name with
        | none => exact hbelow _ rfl
        | some k =>
          have hk : k.isFile = true := hfree k (by rw [List.nil_append, at?, hentry]; rfl)
          exact (hbelow _ rfl).trans (hbelow k hk).symm
      · rw [if_neg hx]
  | cons a above ih =>
    obtain ⟨ks, k, rfl, hk, hr⟩ := exists_directory_of_at? hdir
    have hfind : (ks.find? (·.1 == a)).map (·.2) = some k := hk
    cases q with
    | nil => exact .inr ⟨ks, _, rfl, rfl⟩
    | cons x r =>
      rw [List.cons_append, put, at?, at?, entry?_putEntry, hfind]
      by_cases hx : a = x
      · subst hx
        rw [if_pos rfl, hk]
        refine ih hr (fun j hj => hfree j ?_) fun hr => hq (by rw [hr, List.cons_append])
        rw [List.cons_append, at?, hk]
        exact hj
      · rw [if_neg hx]
        exact .inl rfl

end Node

namespace Disk

/-- A file is the only one that is written: it has the bytes, and everything else stays. -/
structure WritesOnly (d : Disk) (place : List Text) (content : List UInt8) (d' : Disk) :
    Prop where
  /-- The current directory is the same. -/
  current : d'.current = d.current
  /-- The file has the bytes. -/
  content : d'.root.at? place = some (.file content)
  /-- Everything else stays. -/
  others : ∀ q, q ≠ place → Node.Stays (d.root.at? q) (d'.root.at? q)

section Plain

variable {above : List Text} {name : Text}

/-- Names lead to a plain place from its directory only. -/
theorem exists_directory_of_followWith_concat {root : Node} {q : List Text}
    {jump : List Text → List Text → Except FileDefect Reached} {reached : Reached}
    (hplain : root.IsPlain (q ++ above ++ [name]))
    (h : followWith root jump q (above ++ [name]) = .ok reached) :
    ∃ es, root.at? (q ++ above) = some (.directory es) := by
  -- The last name is only looked up in a directory, and there are no links among those before it.
  induction above generalizing q with
  | nil =>
    rw [List.append_nil]
    exact exists_directory_of_followWith h
  | cons a r ih =>
    obtain ⟨es, hes⟩ := exists_directory_of_followWith h
    have hne : a ≠ Path.up := (hplain.names a (by simp)).ne_up
    have happend : q ++ a :: r = q ++ [a] ++ r := by simp
    rw [happend] at hplain ⊢
    rw [List.cons_append, followWith_cons hes, if_neg (by simpa using hne)] at h
    split at h
    · cases h
    split at h
    · rw [if_neg (by simp)] at h
      cases h
    · rename_i target hl
      refine absurd ((Node.at?_concat hes).trans hl) (hplain.noLink _ ?_ target)
      rw [List.append_assoc]
      exact List.prefix_append ..
    · exact ih hplain h

variable {d : Disk} {es : List (Text × Node)}

/-- Names lead to a plain place from its directory, unless one of them is too long. -/
theorem follow_concat (hplain : d.root.IsPlain (above ++ [name]))
    (hdir : d.root.at? above = some (.directory es)) :
    follow d.root linkLimit [] (above ++ [name]) =
      if (above ++ [name]).any (nameLimit < byteCount ·) then .error .nameTooLong
      else .ok (above ++ [name], d.root.at? (above ++ [name])) := by
  have hne : name ≠ Path.up := (hplain.names name (by simp)).ne_up
  have hup : Path.up ∉ above := fun hm => (hplain.names _ (List.mem_append_left _ hm)).ne_up rfl
  have hentry : d.root.at? (above ++ [name]) = Node.entry? (.directory es) name :=
    Node.at?_concat hdir
  rw [linkLimit, follow, followWith_append_below (q := []) rfl hdir hup, List.any_append]
  -- A name that is too long is met when it is its turn, so those before the last one come first.
  by_cases habove : above.any (nameLimit < byteCount ·) = true
  · rw [if_pos habove, if_pos (by rw [habove]; rfl)]
  rw [if_neg habove, List.nil_append, followWith_cons hdir, if_neg (by simpa using hne)]
  by_cases hname : nameLimit < byteCount name
  · rw [if_pos hname, if_pos (by simp [hname])]
  have hshort : ¬((above.any (nameLimit < byteCount ·) ||
      [name].any (nameLimit < byteCount ·)) = true) := by
    rw [eq_false_of_ne_true habove]
    simpa using hname
  rw [if_neg hname, if_neg hshort, hentry]
  cases hk : Node.entry? (.directory es) name with
  | none => rfl
  | some k =>
    cases k with
    | link target => exact absurd (hentry.trans hk) (hplain.noLink _ (List.prefix_refl _) target)
    | file content => rw [followWith, hentry, hk]
    | directory ks => rw [followWith, hentry, hk]

/-- The path of a plain place in a directory leads there, unless it is too long. -/
theorem locate_absolute_concat (hplain : d.root.IsPlain (above ++ [name]))
    (hdir : d.root.at? above = some (.directory es)) :
    Fits (above ++ [name]) ∧ d.locate (Path.absolute (above ++ [name])) =
        .ok (above ++ [name], d.root.at? (above ++ [name])) ∨
      ¬Fits (above ++ [name]) ∧
        d.locate (Path.absolute (above ++ [name])) = .error .nameTooLong := by
  have hfollow := follow_concat hplain hdir
  unfold locate
  rw [Path.names_absolute, Path.flatMap_names hplain.names]
  by_cases hpath : pathLimit < byteCount (Path.absolute (above ++ [name]))
  · rw [if_pos hpath]
    exact .inr ⟨fun hfits => absurd hfits.path (Nat.not_le.mpr hpath), rfl⟩
  rw [if_neg hpath]
  by_cases hlong : (above ++ [name]).any (nameLimit < byteCount ·) = true
  · rw [if_pos hlong] at hfollow
    refine .inr ⟨fun hfits => ?_, hfollow⟩
    obtain ⟨n, hn, hlimit⟩ := List.any_eq_true.mp hlong
    exact absurd (hfits.short n hn) (Nat.not_le.mpr (of_decide_eq_true hlimit))
  · rw [if_neg hlong] at hfollow
    refine .inl ⟨⟨fun n hn => Nat.not_lt.mp fun hlimit => hlong ?_, Nat.not_lt.mp hpath⟩, hfollow⟩
    exact List.any_eq_true.mpr ⟨n, hn, decide_eq_true hlimit⟩

/-- A file is written to a plain place in a directory exactly if its path is not too long and no
directory is there already. -/
theorem write_absolute_concat_eq_ok_iff (hplain : d.root.IsPlain (above ++ [name]))
    (hnamed : ∀ n ∈ above ++ [name], nameFault? n = none)
    (hdir : d.root.at? above = some (.directory es)) {content : List UInt8} {d' : Disk} :
    d.write (Path.absolute (above ++ [name])) content = .ok d' ↔
      Fits (above ++ [name]) ∧
      (∀ ks, d.root.at? (above ++ [name]) ≠ some (.directory ks)) ∧
      d' = { d with root := Node.put (.file content) (above ++ [name]) d.root } := by
  unfold write
  rw [nameFault?_absolute hnamed]
  rcases locate_absolute_concat hplain hdir with ⟨hfits, hlocate⟩ | ⟨hlong, hlocate⟩
  · rw [hlocate]
    dsimp only
    cases hat : d.root.at? (above ++ [name]) with
    | none => simp [hfits, eq_comm]
    | some k => cases k <;> simp [hfits, eq_comm]
  · rw [hlocate]
    exact ⟨fun h => (nomatch h), fun h => absurd h.1 hlong⟩

/-- What is at a plain place is a file, if it is no directory. -/
theorem isFile_of_isPlain {root : Node} {names : List Text} (hplain : root.IsPlain names)
    (hdirectory : ∀ ks, root.at? names ≠ some (.directory ks)) {k : Node}
    (hk : root.at? names = some k) : k.isFile = true := by
  cases k with
  | file content => rfl
  | link target => exact absurd hk (hplain.noLink _ (List.prefix_refl _) target)
  | directory ks => exact absurd hk (hdirectory ks)

/-- What is written is written where the names of its path lead, and no directory is there. -/
theorem exists_follow_of_write {names : List Text} (hnames : ∀ n ∈ names, Path.IsName n)
    {content : List UInt8} {d' : Disk} (h : d.write (Path.absolute names) content = .ok d') :
    ∃ reached, follow d.root linkLimit [] names = .ok reached ∧
      ∀ ks, reached.2 ≠ some (.directory ks) := by
  -- The walk is what writing does first; a directory at its end is a failure.
  obtain ⟨place, node, hlocate, hnode⟩ : ∃ place node,
      d.locate (Path.absolute names) = .ok (place, node) ∧
        ∀ ks, node ≠ some (.directory ks) := by
    unfold write at h
    split at h
    · cases h
    split at h
    · cases h
    · rename_i place node hdirectory hlocate
      refine ⟨place, node, hlocate, ?_⟩
      rintro ks rfl
      exact hdirectory ks rfl
    · cases h
  refine ⟨(place, node), ?_, hnode⟩
  unfold locate at hlocate
  rw [Path.names_absolute, Path.flatMap_names hnames] at hlocate
  split at hlocate
  · cases hlocate
  · exact hlocate

/-- If a file is written to a plain place, it is the only one. -/
theorem writesOnly_of_write {names : List Text} (hplain : d.root.IsPlain names)
    (hnamed : ∀ n ∈ names, nameFault? n = none) (hroot : d.root.isDirectory = true)
    {content : List UInt8} {d' : Disk} (h : d.write (Path.absolute names) content = .ok d') :
    d.WritesOnly names content d' := by
  obtain ⟨reached, hfollow, hreached⟩ := exists_follow_of_write hplain.names h
  rcases List.eq_nil_or_concat names with rfl | ⟨above, name, hconcat⟩
  · -- Nothing is written to the root, where there is a directory.
    cases hfollow
    cases hd : d.root with
    | directory ks => exact absurd (congrArg some hd) (hreached ks)
    | file content => rw [hd] at hroot; cases hroot
    | link target => rw [hd] at hroot; cases hroot
  rw [List.concat_eq_append] at hconcat
  subst hconcat
  obtain ⟨es, hdir⟩ : ∃ es, d.root.at? ([] ++ above) = some (.directory es) :=
    exists_directory_of_followWith_concat hplain hfollow
  obtain ⟨-, hdirectory, rfl⟩ := (write_absolute_concat_eq_ok_iff hplain hnamed hdir).mp h
  exact
    { current := rfl
      content := Node.at?_put_concat hdir name
      others := fun q hq => Node.stays_put content hdir
        (fun k hk => isFile_of_isPlain hplain hdirectory hk) hq }

end Plain

/-- A path with a plain form is one that files can have. -/
theorem nameFault?_of_plainNames {d : Disk} {path : Text} {names : List Text}
    (h : d.plainNames path = .ok names) : nameFault? path = none := by
  rw [← nameFault?_tidy]
  cases hfault : nameFault? (Path.tidy path) with
  | none => rfl
  | some f =>
    rw [plainNames, hfault] at h
    cases h

end Disk

namespace Text

/-- What is in a text without blanks at its edges is in the text. -/
theorem strip_subset (t : Text) : strip t ⊆ t := by
  intro p hp
  have htrimmed : p ∈ ((t.dropWhile Point.isBlank).reverse.dropWhile Point.isBlank) :=
    List.mem_reverse.mp hp
  have hleft : p ∈ t.dropWhile Point.isBlank :=
    List.mem_reverse.mp ((List.dropWhile_suffix _).subset htrimmed)
  exact (List.dropWhile_suffix _).subset hleft

end Text

namespace Report

/-- What is in a cell that is no formula is a tab, or it was there before. -/
theorem mem_defused {t : Text} {p : Point} (h : p ∈ defused t) : p = .scalar '\t' ∨ p ∈ t := by
  unfold defused at h
  split at h
  · exact .inr h
  · split at h
    · exact List.mem_cons.mp h
    · exact .inr h

/-- The name of the file for a table has no slash if that of the plugin has none. -/
theorem isSlash_tableName {plugin : Text} (h : ∀ p ∈ plugin, Path.isSlash p = false) :
    ∀ p ∈ tableName plugin, Path.isSlash p = false := by
  -- The name is made of that of the plugin in steps, none of which brings a slash in.
  have hcollapsed : ∀ p ∈ collapsed plugin, Path.isSlash p = false := by
    refine Text.forall_mem_join (by decide) fun word hw p hp => h p ?_
    exact Text.mem_of_mem_fields (List.mem_of_mem_filter hw) hp
  have hcell : ∀ p ∈ plainCell plugin, Path.isSlash p = false := by
    intro p hp
    rcases mem_defused hp with rfl | hp
    · decide
    · exact hcollapsed p hp
  have hname : ∀ p ∈ List.map hyphenated (Text.strip (plainCell plugin)),
      Path.isSlash p = false := by
    intro p hp
    obtain ⟨q, hq, rfl⟩ := List.mem_map.mp hp
    unfold hyphenated
    split
    · decide
    · exact hcell q (Text.strip_subset _ hq)
  unfold tableName
  refine List.forall_mem_append.mpr ⟨?_, by decide⟩
  split
  · decide
  · exact hname

/-- The name of the file for a table is a name, if that of the plugin has no slash. -/
theorem isName_tableName {plugin : Text} (h : ∀ p ∈ plugin, Path.isSlash p = false) :
    Path.IsName (tableName plugin) := by
  have hlength : 18 ≤ (tableName plugin).length := by
    unfold tableName
    rw [List.length_append]
    exact Nat.le_add_left ..
  have hlong {t : Text} (ht : t.length < 18) : tableName plugin ≠ t := by
    rintro rfl
    exact absurd hlength (Nat.not_le.mpr ht)
  exact ⟨hlong (by decide), hlong (by decide), hlong (by decide), isSlash_tableName h⟩

/-- The table of a result is written in place without a path for it: its text, to a file in the
current directory, and to no other. -/
def WritesInPlace (d : Disk) (r : Result) : Prop :=
  ∃ name bytes d', Path.IsName name ∧ Utf8.encode (table [r]) = .ok bytes ∧
    writeTable d r [] = (.ok (Path.absolute (d.current ++ [name])), d') ∧
    d.WritesOnly (d.current ++ [name]) bytes d'

/-- Without a path, a name is made plain. -/
theorem destination_nil (d : Disk) (name : Text) :
    destination d name [] = (d.plainNames name).map Path.absolute := rfl

/-- A disk is left as it is, or a draft is written at the place that was looked for. -/
theorem writeAt_cases (d : Disk) (place : Attempt Text) (draft : Draft) :
    (writeAt d place draft).2 = d ∨ ∃ plain, place = .ok plain ∧
      d.write plain draft.bytes = .ok (writeAt d place draft).2 := by
  cases place with
  | error f => exact .inl rfl
  | ok plain =>
    unfold writeAt write
    dsimp only
    cases hw : d.write plain draft.bytes with
    | error f => exact .inl rfl
    | ok d' =>
      refine .inr ⟨plain, rfl, hw.trans ?_⟩
      cases draft.fault? <;> rfl

/-- A disk is left as it is, or the only file that is written is one at the place where the name for
the table leads. -/
theorem writeTable_writesOnly {d : Disk} (hd : d.IsReal) (hcircles : d.root.HasNoCircles)
    (hroot : d.root.isDirectory = true) (r : Result) :
    (writeTable d r []).2 = d ∨ ∃ place bytes,
      d.root.Resolves (d.startOf (tableName r.plugin)) (Path.names (tableName r.plugin)) place ∧
      d.WritesOnly place bytes (writeTable d r []).2 := by
  rw [writeTable, writeAt_destination]
  refine (writeAt_cases d _ (tableDraft [r])).imp_right ?_
  rintro ⟨plain, hdestination, hw⟩
  rw [destination_nil] at hdestination
  obtain ⟨names, hnames, rfl⟩ := Attempt.map_eq_ok_iff.mp hdestination
  obtain ⟨place, hplace, hplain, hroot', hnamed⟩ :=
    exists_plain hd hcircles (Disk.nameFault?_of_plainNames hnames)
  cases hnames.symm.trans hplain
  exact ⟨names, _, hplace, Disk.writesOnly_of_write hroot' hnamed hroot hw⟩

/-- An absolute path tells its names. -/
theorem eq_of_absolute_eq {ns ms : List Text} (hns : ∀ n ∈ ns, Path.IsName n)
    (hms : ∀ n ∈ ms, Path.IsName n) (h : Path.absolute ns = Path.absolute ms) : ns = ms :=
  calc ns = Path.names (Path.absolute ns) := by rw [Path.names_absolute, Path.flatMap_names hns]
    _ = Path.names (Path.absolute ms) := by rw [h]
    _ = ms := by rw [Path.names_absolute, Path.flatMap_names hms]

variable {d : Disk} {r : Result}

/-- The table is written in place exactly if its name leads to a place in the current directory that
is not too long and no directory, and its text has bytes. -/
theorem writesInPlace_iff (hd : d.IsReal) (hcircles : d.root.HasNoCircles)
    {es : List (Text × Node)} (hcurrent : d.root.at? d.current = some (.directory es)) :
    WritesInPlace d r ↔ Disk.nameFault? (tableName r.plugin) = none ∧
      (∃ bytes, Utf8.encode (table [r]) = .ok bytes) ∧
      ∃ name, d.root.Resolves (d.startOf (tableName r.plugin)) (Path.names (tableName r.plugin))
          (d.current ++ [name]) ∧ Disk.Fits (d.current ++ [name]) ∧
        ∀ ks, d.root.at? (d.current ++ [name]) ≠ some (.directory ks) := by
  have hroot := Node.isDirectory_of_at? hcurrent
  constructor
  · rintro ⟨name, bytes, d', hname, hb, hrun, -⟩
    obtain ⟨hdestination, bytes', -, hw⟩ := ((saves_writeTable d r []).ok_iff _ d').mp hrun
    rw [destination_nil] at hdestination
    obtain ⟨names, hnames, habsolute⟩ := Attempt.map_eq_ok_iff.mp hdestination
    have hfault := Disk.nameFault?_of_plainNames hnames
    obtain ⟨_, hleads, hplain, hisPlain, hnamed⟩ := exists_plain hd hcircles hfault
    cases hnames.symm.trans hplain
    have hcurrentNames : ∀ n ∈ d.current ++ [name], Path.IsName n :=
      List.forall_mem_append.mpr ⟨hd.current.names, List.forall_mem_singleton.mpr hname⟩
    -- The path in the answer tells the place, since both are given by names.
    obtain rfl : names = d.current ++ [name] :=
      eq_of_absolute_eq hisPlain.names hcurrentNames habsolute
    obtain ⟨hfits, hdirectory, -⟩ :=
      (Disk.write_absolute_concat_eq_ok_iff hisPlain hnamed hcurrent).mp hw
    exact ⟨hfault, ⟨bytes, hb⟩, name, hleads, hfits, hdirectory⟩
  · rintro ⟨hfault, ⟨bytes, hb⟩, name, hleads, hfits, hdirectory⟩
    obtain ⟨_, hleads', hplain, hisPlain, hnamed⟩ := exists_plain hd hcircles hfault
    cases hleads.unique hleads'
    obtain ⟨d', hw⟩ : ∃ d', d.write (Path.absolute (d.current ++ [name])) bytes = .ok d' :=
      ⟨_, (Disk.write_absolute_concat_eq_ok_iff hisPlain hnamed hcurrent).mpr
        ⟨hfits, hdirectory, rfl⟩⟩
    have hdestination : destination d (tableName r.plugin) [] =
        .ok (Path.absolute (d.current ++ [name])) := by
      rw [destination_nil, hplain]
      rfl
    have hrun := ((saves_writeTable d r []).ok_iff _ _).mpr ⟨hdestination, bytes, hb, hw⟩
    exact ⟨name, bytes, d', hisPlain.names name (by simp), hb, hrun,
      Disk.writesOnly_of_write hisPlain hnamed hroot hw⟩

/-- A name without slashes leads to itself in the current directory, unless it is a link there. -/
theorem resolves_tableName (hslash : ∀ p ∈ r.plugin, Path.isSlash p = false)
    (hlink : ∀ target, d.root.at? (d.current ++ [tableName r.plugin]) ≠ some (.link target)) :
    d.root.Resolves (d.startOf (tableName r.plugin)) (Path.names (tableName r.plugin))
      (d.current ++ [tableName r.plugin]) := by
  have hname := isName_tableName hslash
  have hstart : d.startOf (tableName r.plugin) = d.current := by
    unfold Disk.startOf
    refine if_neg fun habsolute => ?_
    obtain ⟨p, t, ht⟩ := List.exists_cons_of_ne_nil hname.ne_nil
    have hp : Path.isSlash p = false := hname.noSlash p (ht ▸ List.mem_cons_self)
    rw [ht] at habsolute
    exact absurd (habsolute.symm.trans hp) (by decide)
  rw [hstart, hname.names_eq]
  exact ⟨0, .down hname.ne_up hlink (.done 0 _)⟩

end Report

/-- Where the table of a result is written if no path is given, and the name that the plugin gives
it is within reach. It is written in place, to a file in the current directory and to no other,
exactly if files can have the name, its text has bytes, and the name leads to a place directly in
the current directory, whose path is not too long and where no directory is. So it is for every
plugin without slashes in its name, if at most a file has the name for the table there; and whatever
the name is, at most one file is written, which is where the name leads. -/
theorem table_in_place_iff {d : Disk} (hd : d.IsReal) (hcircles : d.root.HasNoCircles)
    {es : List (Text × Node)} (hcurrent : d.root.at? d.current = some (.directory es))
    (r : Result) :
    d.IsPassable (Report.tableName r.plugin) →
    (Report.WritesInPlace d r ↔ Disk.nameFault? (Report.tableName r.plugin) = none ∧
      (∃ bytes, Utf8.encode (Report.table [r]) = .ok bytes) ∧
      ∃ name, d.root.Resolves (d.startOf (Report.tableName r.plugin))
          (Path.names (Report.tableName r.plugin)) (d.current ++ [name]) ∧
        Disk.Fits (d.current ++ [name]) ∧
        ∀ ks, d.root.at? (d.current ++ [name]) ≠ some (.directory ks)) ∧
    ((∀ p ∈ r.plugin, Path.isSlash p = false) →
      (∀ k, d.root.at? (d.current ++ [Report.tableName r.plugin]) = some k → k.isFile = true) →
      (Report.WritesInPlace d r ↔ Disk.nameFault? (Report.tableName r.plugin) = none ∧
        (∃ bytes, Utf8.encode (Report.table [r]) = .ok bytes) ∧
        Disk.Fits (d.current ++ [Report.tableName r.plugin]))) ∧
    ((Report.writeTable d r []).2 = d ∨ ∃ place bytes,
      d.root.Resolves (d.startOf (Report.tableName r.plugin))
        (Path.names (Report.tableName r.plugin)) place ∧
      d.WritesOnly place bytes (Report.writeTable d r []).2) := by
  intro _
  have hroot := Node.isDirectory_of_at? hcurrent
  refine ⟨Report.writesInPlace_iff hd hcircles hcurrent, fun hslash hfree => ?_,
    Report.writeTable_writesOnly hd hcircles hroot r⟩
  have hleads := Report.resolves_tableName hslash fun target hl => by cases hfree _ hl
  rw [Report.writesInPlace_iff hd hcircles hcurrent]
  refine and_congr_right fun _ => and_congr_right fun _ => ⟨?_, fun hfits => ?_⟩
  · rintro ⟨name, hleads', hfits, -⟩
    rwa [hleads.unique hleads']
  · exact ⟨_, hleads, hfits, fun ks hk => by cases hfree _ hk⟩

/-- The result for a plugin with a name and one piece of evidence. -/
def resultNamed (plugin : Text) : Result where
  plugin := plugin
  version := none
  declared := none
  analyzed := .none
  evidence := [⟨.script, "a.sh", none, "shell-script", "Script", .none⟩]
  summary := ⟨1, 0, 1, 0, 0⟩
  errors := []

/-- Below a link the table of a plugin with a slash in its name is written where the link leads. -/
theorem resolves_beyond_link : attic.root.Resolves ["w"] ["a", "x-compatibility.csv"]
    ["w", "b", "c", "x-compatibility.csv"] :=
  ⟨1, .link (by decide) rfl Attic.resolves_link <|
    .down (by decide) (Node.at?_ne_link (by decide)) <| .done 1 _⟩

/-- The table of a plugin whose name has a blank is written in place, and that of a plugin whose
name begins with that of a link is not. -/
theorem table_in_place_iff_attic : attic.IsReal ∧ attic.root.HasNoCircles ∧
    (∃ es, attic.root.at? attic.current = some (.directory es)) ∧
    attic.IsPassable (Report.tableName "b c") ∧ attic.IsPassable (Report.tableName "a/x") ∧
    Report.WritesInPlace attic (resultNamed "b c") ∧
    ¬Report.WritesInPlace attic (resultNamed "a/x") := by
  have hpassable : attic.IsPassable (Report.tableName "b c") := by decide +kernel
  have hpassable' : attic.IsPassable (Report.tableName "a/x") := by decide +kernel
  have hstays :=
    table_in_place_iff Attic.isReal Attic.hasNoCircles rfl (resultNamed "b c") hpassable
  have hstrays :=
    table_in_place_iff Attic.isReal Attic.hasNoCircles rfl (resultNamed "a/x") hpassable'
  refine ⟨Attic.isReal, Attic.hasNoCircles, ⟨_, rfl⟩, hpassable, hpassable', ?_, ?_⟩
  · refine (hstays.2.1 (by decide) fun k hk => ?_).mpr ⟨by decide +kernel, ?_, ?_, ?_⟩
    · have hnone : attic.root.at? (attic.current ++ [Report.tableName "b c"]) = none := by rfl
      cases hnone.symm.trans hk
    · exact ⟨_, Utf8.encode_eq_ok_iff.mpr ⟨by decide +kernel, rfl⟩⟩
    · decide +kernel
    · decide +kernel
  · rw [hstrays.1]
    rintro ⟨-, -, name, hleads, -⟩
    have hplace := hleads.unique resolves_beyond_link
    cases hplace

/-- A step up in the name of a plugin takes its table out of the current directory. -/
theorem step_up_escapes : attic.IsReal ∧ attic.root.HasNoCircles ∧
    (Report.writeTable attic (resultNamed "../x") []).1 = .ok "/x-compatibility.csv" ∧
    (attic.root.at? ["x-compatibility.csv"]).isNone = true ∧
    ((Report.writeTable attic (resultNamed "../x") []).2.root.at?
      ["x-compatibility.csv"]).any Node.isFile = true ∧
    ¬Report.WritesInPlace attic (resultNamed "../x") := by
  have hrun : (Report.writeTable attic (resultNamed "../x") []).1 =
      .ok "/x-compatibility.csv" := by decide +kernel
  refine ⟨Attic.isReal, Attic.hasNoCircles, hrun, by decide, by decide +kernel, ?_⟩
  rintro ⟨name, bytes, d', -, -, hinPlace, -⟩
  rw [hinPlace] at hrun
  have hpath : Path.absolute ["w", name] = "/x-compatibility.csv" := Except.ok.inj hrun
  rw [Path.absolute, Path.ofNames_cons_cons] at hpath
  -- The paths differ in their second points.
  have hsecond : some (Point.scalar 'w') = some (.scalar 'x') := congrArg (·[1]?) hpath
  exact absurd hsecond (by decide)

end SurfaceAudit
