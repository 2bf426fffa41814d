import SurfaceAudit.Proofs.Runs

/-!
# Lists of imports

A line that imports modules has a list of dotted paths, each perhaps with a new name, with commas
between them. What the readers of such a line do is said by its shape alone: the first name of a
path after `from` (`Script.Python.fromModule?_eq_some_iff`), and the paths after `import`, each of
which stands behind the items before it in the list (`Script.Python.mem_importPaths_iff`). An item
is read up to where the text goes on with nothing that belongs to one (`Script.Python.IsClosed`),
and behind a comma the next path is read (`Script.Python.morePaths_comma`).
-/

namespace SurfaceAudit.Script.Python

open Text

section Classes

variable {p : Point} {t : Text}

/-- A word character is part of a path. -/
theorem isPath_of_isWord (h : p.isWord = true) : isPath p = true := by simp [isPath, h]

/-- A blank is no part of a path. -/
theorem isPath_of_isBlank (h : p.isBlank = true) : isPath p = false := by
  have hdot : p ≠ .scalar '.' := by
    rintro rfl
    exact absurd h (by decide)
  simp [isPath, Point.isWord_of_isBlank h, hdot]

/-- So what is part of a path is no blank. -/
theorem isBlank_of_isPath (h : isPath p = true) : p.isBlank = false := by
  by_contra hblank
  rw [Bool.not_eq_false] at hblank
  rw [isPath_of_isBlank hblank] at h
  cases h

/-- A word character is no blank. -/
theorem isBlank_of_isWord (h : p.isWord = true) : p.isBlank = false :=
  isBlank_of_isPath (isPath_of_isWord h)

/-- What is past the paths is past the words. -/
theorem isPast_isWord (h : IsPast isPath t) : IsPast Point.isWord t := by
  refine h.imp fun p hp => ?_
  by_contra hword
  rw [Bool.not_eq_false] at hword
  rw [isPath_of_isWord hword] at hp
  cases hp

end Classes

/-! ## Items of a list -/

/-- A run of what belongs to paths. -/
structure IsRun (path : Text) : Prop where
  /-- It is not empty. -/
  ne_nil : path ≠ []
  /-- All of it belongs to paths. -/
  isPath : ∀ p ∈ path, isPath p = true

/-- A name: word characters. -/
structure IsName (n : Text) : Prop where
  /-- It is not empty. -/
  ne_nil : n ≠ []
  /-- All of it is word characters. -/
  isWord : ∀ p ∈ n, p.isWord = true

/-- What follows a path in an item: nothing, or `as` and a new name. -/
inductive IsAlias : Text → Prop where
  /-- No new name. -/
  | none : IsAlias []
  /-- A new name. -/
  | named {g h n : Text} (before : g.IsGap) (after : h.IsGap) (name : IsName n) :
      IsAlias (g ++ ("as" ++ (h ++ n)))

/-- Items before another one in a list: each is a path, perhaps with a new name, and has a comma
behind it, with blanks on both sides. -/
inductive Leads : Text → Prop where
  /-- The other item is the first one. -/
  | nil : Leads []
  /-- An item before the others. -/
  | item {path q a b r : Text} (run : IsRun path) (renamed : IsAlias q) (before : a.IsBlank)
      (after : b.IsBlank) (rest : Leads r) : Leads (path ++ (q ++ (a ++ .scalar ',' :: (b ++ r))))

/-- An item ends before a text: behind the blanks in it comes nothing that belongs to a path. -/
def IsClosed (t : Text) : Prop := IsPast isPath (t.dropWhile Point.isBlank)

section Items

variable {a b g path q r t : Text}

/-- A run begins with what is no blank. -/
theorem IsRun.isPast (h : IsRun path) : IsPast Point.isBlank (path ++ r) :=
  (isPast_append h.ne_nil).mpr fun p hp => isBlank_of_isPath (h.isPath p (List.mem_of_mem_head? hp))

/-- A name is a run. -/
theorem IsName.isRun (h : IsName path) : IsRun path :=
  ⟨h.ne_nil, fun p hp => isPath_of_isWord (h.isWord p hp)⟩

/-- A gap ends what is before it. -/
theorem isPast_gap (h : g.IsGap) : IsPast isPath (g ++ r) :=
  (isPast_append h.ne_nil).mpr fun p hp =>
    isPath_of_isBlank (h.isBlank p (List.mem_of_mem_head? hp))

/-- What ends an item ends its path. -/
theorem IsClosed.isPast (h : IsClosed t) : IsPast isPath t := by
  cases t with
  | nil => exact isPast_nil
  | cons p t =>
    by_cases hp : p.isBlank = true
    · exact isPast_cons.mpr (isPath_of_isBlank hp)
    · rwa [IsClosed, List.dropWhile_cons_of_neg hp] at h

/-- A comma ends an item. -/
theorem isClosed_comma (ha : a.IsBlank) : IsClosed (a ++ .scalar ',' :: t) := by
  have hcomma : IsPast Point.isBlank (.scalar ',' :: t) := isPast_cons.mpr (by decide)
  rw [IsClosed, dropWhile_run ha hcomma]
  exact isPast_cons.mpr (by decide)

/-- A path ends where its item goes on. -/
theorem IsAlias.isPast (hq : IsAlias q) (hr : IsPast isPath r) : IsPast isPath (q ++ r) := by
  cases hq with
  | none => exact hr
  | named hg _ _ =>
    rw [List.append_assoc]
    exact isPast_gap hg

/-- A text that is past the paths does not go on with `as`. -/
theorem after?_as_eq_none (h : IsPast isPath t) : after? "as" t = none := by
  cases hafter : after? "as" t with
  | none => rfl
  | some r =>
    rw [after?_eq_some_iff.mp hafter] at h
    have hletter : isPath (.scalar 'a') = false := h _ rfl
    exact absurd hletter (by decide)

/-- The new name of a module is passed over, and nothing else is. -/
theorem afterAlias_append (hq : IsAlias q) (hr : IsClosed r) : afterAlias (q ++ r) = r := by
  cases hq with
  | none =>
    rw [List.nil_append, afterAlias]
    cases hblanks : afterBlanks? r with
    | none => rfl
    | some t =>
      -- Behind the blanks there is no new name.
      obtain ⟨g, hg, rfl, ht⟩ := afterBlanks?_eq_some_iff.mp hblanks
      rw [IsClosed, dropWhile_run hg.isBlank ht] at hr
      simp only [Option.bind_eq_bind, Option.bind_some, after?_as_eq_none hr, Option.bind_none,
        Option.getD_none]
  | @named g h n hg hh hn =>
    have hword : IsPast Point.isBlank (("as" : Text) ++ (h ++ (n ++ r))) := by
      intro p hp
      obtain rfl : Point.scalar 'a' = p := Option.some.inj hp
      decide
    have hname : run? Point.isWord (n ++ r) = some (n, r) :=
      run?_append hn.ne_nil hn.isWord (isPast_isWord hr.isPast)
    have hafter : afterBlanks? (h ++ (n ++ r)) = some (n ++ r) :=
      afterBlanks?_append hh hn.isRun.isPast
    simp only [List.append_assoc]
    rw [afterAlias, afterBlanks?_append hg hword]
    simp [after?_append, hafter, hname]

/-- What is passed over after a path is a new name or nothing. -/
theorem exists_afterAlias (t : Text) : ∃ q, IsAlias q ∧ t = q ++ afterAlias t := by
  unfold afterAlias
  extract_lets rest
  -- The new name is read in four steps, and if one of them fails nothing is passed over.
  cases hrest : rest with
  | none => exact ⟨[], .none, rfl⟩
  | some r =>
    obtain ⟨b, hb, hrest⟩ := Option.bind_eq_some_iff.mp hrest
    obtain ⟨c, hc, hrest⟩ := Option.bind_eq_some_iff.mp hrest
    obtain ⟨d, hd, hrest⟩ := Option.bind_eq_some_iff.mp hrest
    obtain ⟨⟨n, r'⟩, hn, hrest⟩ := Option.bind_eq_some_iff.mp hrest
    obtain rfl : r' = r := Option.some.inj hrest
    obtain ⟨g, hg, rfl, -⟩ := afterBlanks?_eq_some_iff.mp hb
    obtain rfl := after?_eq_some_iff.mp hc
    obtain ⟨h, hh, rfl, -⟩ := afterBlanks?_eq_some_iff.mp hd
    obtain ⟨rfl, hne, hword, -⟩ := run?_eq_some_iff.mp hn
    refine ⟨g ++ ("as" ++ (h ++ n)), .named hg hh ⟨hne, hword⟩, ?_⟩
    simp

/-- What is left behind a new name, if there is one, is the end of the text. -/
theorem afterAlias_suffix (t : Text) : afterAlias t <:+ t := by
  obtain ⟨q, -, ht⟩ := exists_afterAlias t
  exact ⟨q, ht.symm⟩

end Items

/-! ## Paths behind items -/

section Paths

variable {a b before path q r t u : Text}

/-- Behind a comma the next path is read. -/
theorem morePaths_comma (ha : a.IsBlank) (hb : b.IsBlank) (hu : run? isPath u = some (path, r))
    (bound : Nat) : morePaths (bound + 1) (a ++ .scalar ',' :: (b ++ u)) =
      path :: morePaths bound (afterAlias r) := by
  obtain ⟨rfl, hne, hpath, -⟩ := run?_eq_some_iff.mp hu
  have hcomma : IsPast Point.isBlank (.scalar ',' :: (b ++ (path ++ r))) :=
    isPast_cons.mpr (by decide)
  have hstart : IsPast Point.isBlank (path ++ r) := IsRun.isPast ⟨hne, hpath⟩
  rw [morePaths, dropWhile_run ha hcomma]
  simp only [dropWhile_run hb hstart, hu]

/-- Behind `import` and a gap the paths are read, if there is one in front. -/
theorem importPaths_append {g : Text} (hg : g.IsGap) (hu : run? isPath u = some (path, r)) :
    importPaths ("import" ++ (g ++ u)) = path :: morePaths r.length (afterAlias r) := by
  obtain ⟨rfl, hne, hpath, -⟩ := run?_eq_some_iff.mp hu
  have hstart : IsPast Point.isBlank (path ++ r) := IsRun.isPast ⟨hne, hpath⟩
  have hread : (do run? isPath (← afterBlanks? (← after? "import"
      ("import" ++ (g ++ (path ++ r))))) : Option (Text × Text)) = some (path, r) := by
    rw [after?_append]
    show (do run? isPath (← afterBlanks? (g ++ (path ++ r))) : Option _) = _
    rw [afterBlanks?_append hg hstart]
    exact hu
  unfold importPaths
  rw [hread]

/-- A path that stands behind other items is read with them. -/
theorem mem_of_leads (hbefore : Leads before) (hpath : IsRun path) (hr : IsPast isPath r) :
    ∃ first rest, run? isPath (before ++ (path ++ r)) = some (first, rest) ∧
      ∀ bound, rest.length ≤ bound → path ∈ first :: morePaths bound (afterAlias rest) := by
  induction hbefore with
  | nil =>
    exact ⟨path, r, run?_append hpath.ne_nil hpath.isPath hr, fun _ _ => List.mem_cons_self⟩
  | @item path' q a b u hpath' hq ha hb _ ih =>
    obtain ⟨first, rest, hrun, hmem⟩ := ih
    have hclosed : IsClosed (a ++ .scalar ',' :: (b ++ (u ++ (path ++ r)))) := isClosed_comma ha
    have happend : path' ++ (q ++ (a ++ .scalar ',' :: (b ++ u))) ++ (path ++ r) =
        path' ++ (q ++ (a ++ .scalar ',' :: (b ++ (u ++ (path ++ r))))) := by simp
    rw [happend]
    refine ⟨path', _, run?_append hpath'.ne_nil hpath'.isPath (hq.isPast hclosed.isPast),
      fun bound hbound => List.mem_cons_of_mem _ ?_⟩
    rw [afterAlias_append hq hclosed]
    -- The rest is shorter by the comma at least.
    have hlength : rest.length ≤ (u ++ (path ++ r)).length := by
      rw [(run?_eq_some_iff.mp hrun).1, List.length_append]
      omega
    obtain ⟨bound, rfl⟩ : ∃ k, bound = k + 1 := by
      refine ⟨bound - 1, ?_⟩
      simp only [List.length_append, List.length_cons] at hbound
      omega
    rw [morePaths_comma ha hb hrun]
    apply hmem
    simp only [List.length_append, List.length_cons] at hbound hlength
    omega

/-- A path that is read behind a comma stands behind other items. -/
theorem exists_of_mem_morePaths {bound : Nat} (h : path ∈ morePaths bound t) :
    ∃ a b before r : Text, a.IsBlank ∧ b.IsBlank ∧ Leads before ∧ IsRun path ∧ IsPast isPath r ∧
      t = a ++ .scalar ',' :: (b ++ (before ++ (path ++ r))) := by
  -- The first item behind the comma is the path, or it is one more item before it.
  induction bound generalizing t with
  | zero => cases h
  | succ bound ih =>
    have hsplit : t = t.takeWhile Point.isBlank ++ t.dropWhile Point.isBlank :=
      List.takeWhile_append_dropWhile.symm
    have hblank (t : Text) : IsBlank (t.takeWhile Point.isBlank) :=
      fun p hp => List.mem_takeWhile_imp hp
    rw [morePaths] at h
    split at h
    · rename_i u hu
      have hu' : u = u.takeWhile Point.isBlank ++ u.dropWhile Point.isBlank :=
        List.takeWhile_append_dropWhile.symm
      split at h
      · rename_i first rest hrun
        obtain ⟨hfirst, hne, hfirstPath, hrest⟩ := run?_eq_some_iff.mp hrun
        rcases List.mem_cons.mp h with rfl | h
        · refine ⟨t.takeWhile Point.isBlank, u.takeWhile Point.isBlank, [], rest, hblank t,
            hblank u, .nil, ⟨hne, hfirstPath⟩, hrest, ?_⟩
          rw [List.nil_append, ← hfirst, ← hu', ← hu]
          exact hsplit
        · obtain ⟨a, b, before, r, ha, hb, hbefore, hpath, hr, hafter⟩ := ih h
          obtain ⟨q, hq, hqrest⟩ := exists_afterAlias rest
          refine ⟨t.takeWhile Point.isBlank, u.takeWhile Point.isBlank, _, r, hblank t, hblank u,
            .item ⟨hne, hfirstPath⟩ hq ha hb hbefore, hpath, hr, ?_⟩
          have hdrop : u.dropWhile Point.isBlank = first ++ (q ++ (a ++ .scalar ',' ::
              (b ++ before))) ++ (path ++ r) := by
            rw [hfirst, hqrest, hafter]
            simp
          rw [← hdrop, ← hu', ← hu]
          exact hsplit
      · cases h
    · cases h

/-- The paths that are read in a line stand after `import` behind other items. -/
theorem mem_importPaths_iff : path ∈ importPaths t ↔ ∃ g before r, g.IsGap ∧ Leads before ∧
    IsRun path ∧ IsPast isPath r ∧ t = "import" ++ (g ++ (before ++ (path ++ r))) := by
  constructor
  · intro h
    unfold importPaths at h
    extract_lets first at h
    cases hfirst : first with
    | none => simp [hfirst] at h
    | some found =>
      obtain ⟨path', rest⟩ := found
      simp only [hfirst] at h
      obtain ⟨b, hb, hfirst⟩ := Option.bind_eq_some_iff.mp hfirst
      obtain ⟨c, hc, hrun⟩ := Option.bind_eq_some_iff.mp hfirst
      obtain rfl := after?_eq_some_iff.mp hb
      obtain ⟨g, hg, rfl, -⟩ := afterBlanks?_eq_some_iff.mp hc
      obtain ⟨rfl, hne, hpath', hrest⟩ := run?_eq_some_iff.mp hrun
      rcases List.mem_cons.mp h with rfl | h
      · exact ⟨g, [], rest, hg, .nil, ⟨hne, hpath'⟩, hrest, rfl⟩
      · obtain ⟨a, b, before, r, ha, hb, hbefore, hpath, hr, hafter⟩ := exists_of_mem_morePaths h
        obtain ⟨q, hq, hqrest⟩ := exists_afterAlias rest
        refine ⟨g, _, r, hg, .item ⟨hne, hpath'⟩ hq ha hb hbefore, hpath, hr, ?_⟩
        rw [hqrest, hafter]
        simp
  · rintro ⟨g, before, r, hg, hbefore, hpath, hr, rfl⟩
    -- The items before the path are read as items, so the path is among those that follow.
    obtain ⟨first, rest, hrun, hmem⟩ := mem_of_leads hbefore hpath hr
    rw [importPaths_append hg hrun]
    exact hmem _ (Nat.le_refl _)

end Paths

/-- The module that is read after `from` is the first name of a path, between gaps and before the
word `import`. -/
theorem fromModule?_eq_some_iff {t n : Text} : fromModule? t = some n ↔
    ∃ g d h r, g.IsGap ∧ IsName n ∧ IsPast Point.isWord d ∧ (∀ p ∈ d, isPath p = true) ∧ h.IsGap ∧
      IsPast Point.isWord r ∧ t = "from" ++ (g ++ (n ++ (d ++ (h ++ ("import" ++ r))))) := by
  constructor
  · intro hread
    obtain ⟨b, hb, hread⟩ := Option.bind_eq_some_iff.mp hread
    obtain ⟨c, hc, hread⟩ := Option.bind_eq_some_iff.mp hread
    obtain ⟨⟨name, u⟩, hname, hread⟩ := Option.bind_eq_some_iff.mp hread
    obtain ⟨e, he, hread⟩ := Option.bind_eq_some_iff.mp hread
    obtain ⟨r, hr, hread⟩ := Option.bind_eq_some_iff.mp hread
    obtain ⟨hword, hread⟩ := Option.ite_none_right_eq_some.mp hread
    obtain rfl := Option.some.inj hread
    obtain rfl := after?_eq_some_iff.mp hb
    obtain ⟨g, hg, rfl, -⟩ := afterBlanks?_eq_some_iff.mp hc
    obtain ⟨rfl, hne, hnameWord, hpast⟩ := run?_eq_some_iff.mp hname
    obtain ⟨h, hh, hrest, -⟩ := afterBlanks?_eq_some_iff.mp he
    obtain rfl := after?_eq_some_iff.mp hr
    refine ⟨g, u.takeWhile isPath, h, r, hg, ⟨hne, hnameWord⟩,
      hpast.of_isPrefix (List.takeWhile_prefix isPath), fun p hp => List.mem_takeWhile_imp hp, hh,
      endsWord_iff.mp hword, ?_⟩
    rw [← hrest, List.takeWhile_append_dropWhile]
  · rintro ⟨g, d, h, r, hg, hn, hd, hpath, hh, hr, rfl⟩
    -- Each part ends where the next begins, which is what makes the readings stop there.
    have hgap : IsPast isPath (h ++ ("import" ++ r)) := isPast_gap hh
    have hrun : run? Point.isWord (n ++ (d ++ (h ++ ("import" ++ r)))) =
        some (n, d ++ (h ++ ("import" ++ r))) :=
      run?_append hn.ne_nil hn.isWord (hd.append (isPast_isWord hgap))
    have hkeyword : IsPast Point.isBlank (("import" : Text) ++ r) := by
      intro p hp
      obtain rfl : Point.scalar 'i' = p := Option.some.inj hp
      decide
    have hdrop : (d ++ (h ++ ("import" ++ r))).dropWhile isPath = h ++ ("import" ++ r) :=
      dropWhile_run hpath hgap
    unfold fromModule?
    rw [after?_append]
    simp only [Option.bind_eq_bind, Option.bind_some, afterBlanks?_append hg hn.isRun.isPast, hrun,
      hdrop, afterBlanks?_append hh hkeyword, after?_append, endsWord_iff.mpr hr, if_true]

/-- A module that a line imports is a part of it. -/
theorem infix_of_mem_modules {line m : Text} (h : m ∈ Python.modules line) : m <:+: line := by
  refine List.IsInfix.trans ?_ (infix_strip line)
  unfold Python.modules at h
  dsimp only at h
  split at h
  · rename_i n hn
    obtain rfl := List.mem_singleton.mp h
    obtain ⟨g, d, h', r, -, -, -, -, -, -, hline⟩ := fromModule?_eq_some_iff.mp hn
    exact ⟨"from" ++ g, d ++ (h' ++ ("import" ++ r)), by simp [hline]⟩
  · obtain ⟨path, hpath, rfl⟩ := List.mem_map.mp h
    obtain ⟨g, before, r, -, -, -, -, hline⟩ := mem_importPaths_iff.mp hpath
    exact (List.takeWhile_prefix _).isInfix.trans ⟨"import" ++ (g ++ before), r, by simp [hline]⟩

end SurfaceAudit.Script.Python
