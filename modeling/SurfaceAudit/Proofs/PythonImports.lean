import SurfaceAudit.Proofs.FirstSeen
import SurfaceAudit.Proofs.ImportLists
import SurfaceAudit.Rules.Bundled

/-!
# The modules that a script imports

The import lines of a script are told by their shape (`Script.Python.LineImports`): a list of
modules after `import`, one module after `from`, or a relative one, which names none. All modules of
such lines are read in order (`Script.Python.LineImports.modules_eq`), so that the evidence of a
script is one piece for each module of a third party, with the number of the first line that imports
it (`imports_read_completely`).

In whatever other text looks like an import line, what is read is a word on that line, with one
exception: a path in a list may begin with a dot, and then it has no first name
(`Script.Python.nil_mem_modules_iff`). So the evidence names modules exactly if there is no such
path, and else one piece of it names nothing (`imports_named_unless_dotted`).
-/

namespace SurfaceAudit

/-- A text holds a word: what is before it and after it is no part of a word. -/
def Text.HoldsWord (t w : Text) : Prop :=
  ∃ a r, t = a ++ (w ++ r) ∧ SetApart (!Point.isWord ·) a r

namespace Script.Python

open Text

/-! ## Import lines -/

/-- A dotted path with its first name: names with a dot between two of them. -/
inductive IsDotted (first : Text) : Text → Prop where
  /-- The names of the path. -/
  | path {names : List Text} (head : IsName first) (tail : ∀ n ∈ names, IsName n) :
      IsDotted first (first ++ names.flatMap (.scalar '.' :: ·))

/-- An item of an import list: a module, and a new name if it gets one. -/
inductive Item (m : Text) : Text → Prop where
  /-- A path, and what follows it. -/
  | mk {path q : Text} (dotted : IsDotted m path) (renamed : IsAlias q) : Item m (path ++ q)

/-- What follows an item in an import list: further items, each behind a comma with blanks around
it, and then blanks and perhaps a comment. -/
inductive Follow : List Text → Text → Prop where
  /-- The end of the list. -/
  | done {b c : Text} (blank : b.IsBlank) (comment : ∀ p ∈ c.head?, p = .scalar '#') :
      Follow [] (b ++ c)
  /-- A further item. -/
  | next {a b i r m : Text} {ms : List Text} (before : a.IsBlank) (after : b.IsBlank)
      (item : Item m i) (rest : Follow ms r) :
      Follow (m :: ms) (a ++ .scalar ',' :: (b ++ (i ++ r)))

/-- A line imports modules, which are the first names of its paths from left to right. Names are of
word characters, whatever they spell. -/
inductive LineImports : List Text → Text → Prop where
  /-- A list of modules after `import`. -/
  | list {a g i r m : Text} {ms : List Text} (indent : a.IsBlank) (gap : g.IsGap)
      (item : Item m i) (rest : Follow ms r) :
      LineImports (m :: ms) (a ++ ("import" ++ (g ++ (i ++ r))))
  /-- One module after `from`, and whatever after `import`. -/
  | member {a g path h r m : Text} (indent : a.IsBlank) (before : g.IsGap)
      (dotted : IsDotted m path) (after : h.IsGap) (rest : IsPast Point.isWord r) :
      LineImports [m] (a ++ ("from" ++ (g ++ (path ++ (h ++ ("import" ++ r))))))
  /-- A relative path after `from` names no module. -/
  | relative {a g r : Text} (indent : a.IsBlank) (gap : g.IsGap) :
      LineImports [] (a ++ ("from" ++ (g ++ .scalar '.' :: r)))
  /-- A line that does not begin with `import` or `from` and a blank. -/
  | other {line : Text} (other : ∀ keyword ∈ [("import" : Text), "from"], ∀ p r,
      line.strip = keyword ++ p :: r → p.isBlank = false) : LineImports [] line

section Modules

variable {first g i m path r t : Text} {ms : List Text}

/-- The first name of a path. -/
def firstName (path : Text) : Text := path.takeWhile (· != Point.scalar '.')

/-- A line with a module after `from` imports this module alone. -/
theorem modules_of_fromModule? {line n : Text} (h : fromModule? line.strip = some n) :
    Python.modules line = [n] := by
  unfold Python.modules
  dsimp only
  rw [h]

/-- Any other line imports the first names of the paths in its list. -/
theorem modules_of_importPaths {line : Text} (h : fromModule? line.strip = none) :
    Python.modules line = (importPaths line.strip).map firstName := by
  unfold Python.modules
  dsimp only
  rw [h]
  rfl

/-- No module is read after `from` in a line that begins with `import`. -/
theorem fromModule?_import (t : Text) : fromModule? ("import" ++ t) = none := by
  cases h : fromModule? ("import" ++ t) with
  | none => rfl
  | some n =>
    obtain ⟨g, d, h, r, -, -, -, -, -, -, heq⟩ := fromModule?_eq_some_iff.mp h
    cases heq

/-- No list is read in a line that begins with `from`. -/
theorem importPaths_from (t : Text) : importPaths ("from" ++ t) = [] := by
  refine List.eq_nil_iff_forall_not_mem.mpr fun path hpath => ?_
  obtain ⟨g, before, r, -, -, -, -, heq⟩ := mem_importPaths_iff.mp hpath
  cases heq

/-- What is left of a dotted path behind its first name. -/
theorem IsDotted.exists_rest (h : IsDotted first path) : ∃ d, path = first ++ d ∧ IsName first ∧
    IsPast (· != Point.scalar '.') d ∧ ∀ p ∈ d, isPath p = true := by
  obtain ⟨hfirst, hnames⟩ := h
  rename_i names
  have hpath : ∀ p ∈ names.flatMap (Point.scalar '.' :: ·), isPath p = true := by
    intro p hp
    obtain ⟨n, hn, hp⟩ := List.mem_flatMap.mp hp
    rcases List.mem_cons.mp hp with rfl | hp
    · decide
    · exact isPath_of_isWord ((hnames n hn).isWord p hp)
  refine ⟨_, rfl, hfirst, ?_, hpath⟩
  cases names with
  | nil => exact isPast_nil
  | cons n names => exact isPast_cons.mpr (by simp)

/-- A dotted path is a run of what belongs to paths. -/
theorem IsDotted.isRun (h : IsDotted first path) : IsRun path := by
  obtain ⟨d, rfl, hfirst, -, hd⟩ := h.exists_rest
  exact ⟨List.append_ne_nil_of_left_ne_nil hfirst.ne_nil d,
    List.forall_mem_append.mpr ⟨hfirst.isRun.isPath, hd⟩⟩

/-- The module of a dotted path is its first name. -/
theorem IsDotted.firstName_eq (h : IsDotted first path) : firstName path = first := by
  obtain ⟨d, rfl, hfirst, hd, -⟩ := h.exists_rest
  refine takeWhile_run (fun p hp => ?_) hd
  refine bne_iff_ne.mpr ?_
  rintro rfl
  exact absurd (hfirst.isWord _ hp) (by decide)

/-- An item is no blank, and ends with none. -/
theorem Item.getLast? (h : Item m i) : i ≠ [] ∧ ∀ p ∈ i.getLast?, p.isBlank = false := by
  obtain ⟨hpath, hq⟩ := h
  have hrun := hpath.isRun
  refine ⟨List.append_ne_nil_of_left_ne_nil hrun.ne_nil _, fun p hp => ?_⟩
  cases hq with
  | none =>
    rw [List.append_nil] at hp
    exact isBlank_of_isPath (hrun.isPath p (List.mem_of_mem_getLast? hp))
  | @named g h n hg hh hn =>
    have hlast : ∀ s : Text, (s ++ n).getLast? = n.getLast? :=
      fun s => List.getLast?_append_of_ne_nil s hn.ne_nil
    rw [← List.append_assoc, ← List.append_assoc, ← List.append_assoc, hlast] at hp
    exact isBlank_of_isWord (hn.isWord p (List.mem_of_mem_getLast? hp))

/-- What follows an item ends it. -/
theorem Follow.isClosed (h : Follow ms r) : IsClosed r := by
  cases h with
  | @done b c hb hc =>
    have hhash : IsPast Point.isBlank c := fun p hp => hc p hp ▸ by decide
    rw [IsClosed, dropWhile_run hb hhash]
    exact fun p hp => hc p hp ▸ by decide
  | next ha _ _ _ => exact isClosed_comma ha

/-- Without the blanks at its end it is still what follows an item. -/
theorem Follow.trimRight (h : Follow ms r) : Follow ms (r.trimRight Point.isBlank) := by
  induction h with
  | @done b c hb hc =>
    cases c with
    | nil =>
      rw [List.append_nil, hb.trimRight_eq]
      have hnone : Follow [] ([] ++ []) := .done (by simp [IsBlank]) (by simp)
      exact hnone
    | cons p c =>
      -- The comment begins with no blank, and keeps its beginning.
      obtain rfl : p = .scalar '#' := hc p rfl
      have hhash : ∀ p ∈ (b ++ [Point.scalar '#']).getLast?, p.isBlank = false := by
        intro p hp
        rw [List.getLast?_concat] at hp
        obtain rfl := Option.some.inj hp
        decide
      have hsplit : b ++ Point.scalar '#' :: c = (b ++ [.scalar '#']) ++ c := by simp
      rw [hsplit, trimRight_append hhash, List.append_assoc]
      exact .done hb (by simp)
  | @next a b i r m ms ha hb hi _ ih =>
    obtain ⟨hne, hlast⟩ := hi.getLast?
    have hend : ∀ p ∈ (a ++ .scalar ',' :: (b ++ i)).getLast?, p.isBlank = false := by
      have hlist : a ++ .scalar ',' :: (b ++ i) = (a ++ .scalar ',' :: b) ++ i := by simp
      rw [hlist, List.getLast?_append_of_ne_nil _ hne]
      exact hlast
    have hsplit : a ++ .scalar ',' :: (b ++ (i ++ r)) = (a ++ .scalar ',' :: (b ++ i)) ++ r := by
      simp
    rw [hsplit, trimRight_append hend]
    simpa using Follow.next ha hb hi ih

/-- An item is read: its path, and behind it what follows the item. -/
theorem Item.run? (h : Item m i) (hr : IsClosed r) : ∃ path t, firstName path = m ∧
    Script.run? isPath (i ++ r) = some (path, t) ∧ afterAlias t = r := by
  obtain ⟨hpath, hq⟩ := h
  rename_i path q
  refine ⟨path, q ++ r, hpath.firstName_eq, ?_, afterAlias_append hq hr⟩
  rw [List.append_assoc]
  exact run?_append hpath.isRun.ne_nil hpath.isRun.isPath (hq.isPast hr.isPast)

/-- The further items of a list are read in order. -/
theorem Follow.morePaths_eq (h : Follow ms r) {bound : Nat} (hbound : r.length ≤ bound) :
    (morePaths bound r).map firstName = ms := by
  -- Every item that follows takes at least its comma, which pays for the step of the bound.
  induction h generalizing bound with
  | @done b c hb hc =>
    cases bound with
    | zero => rfl
    | succ bound =>
      have hhash : IsPast Point.isBlank c := fun p hp => hc p hp ▸ by decide
      rw [morePaths, dropWhile_run hb hhash]
      split
      · exact absurd (hc _ rfl) (by decide)
      · rfl
  | @next a b i r m ms ha hb hi hr ih =>
    obtain ⟨path, t, hname, hrun, hafter⟩ := hi.run? hr.isClosed
    obtain ⟨bound, rfl⟩ : ∃ k, bound = k + 1 := by
      refine ⟨bound - 1, ?_⟩
      simp only [List.length_append, List.length_cons] at hbound
      omega
    have hrest : r.length ≤ bound := by
      simp only [List.length_append, List.length_cons] at hbound
      omega
    rw [morePaths_comma ha hb hrun, hafter, List.map_cons, hname, ih hrest]

/-- A list of modules is read completely and in order. -/
theorem Item.importPaths_eq (hi : Item m i) (hg : g.IsGap) (hr : Follow ms r) :
    (importPaths ("import" ++ (g ++ (i ++ r)))).map firstName = m :: ms := by
  obtain ⟨path, t, hname, hrun, hafter⟩ := hi.run? hr.isClosed
  have hlength : r.length ≤ t.length := hafter ▸ (afterAlias_suffix t).length_le
  rw [importPaths_append hg hrun, hafter, List.map_cons, hname, hr.morePaths_eq hlength]

/-- A relative path has no first name. -/
theorem fromModule?_relative (hg : g.IsGap) (t : Text) :
    fromModule? ("from" ++ (g ++ .scalar '.' :: t)) = none := by
  have hdot : IsPast Point.isBlank (.scalar '.' :: t) := isPast_cons.mpr (by decide)
  have hname : Script.run? Point.isWord (.scalar '.' :: t) = none :=
    run?_eq_none (isPast_cons.mpr (by decide))
  unfold fromModule?
  rw [after?_append]
  simp only [Option.bind_eq_bind, Option.bind_some, afterBlanks?_append hg hdot, hname,
    Option.bind_none]

/-- Blanks are trimmed before a keyword, and after what follows a text behind it that ends with no
blank. -/
theorem strip_keyword {keyword a s t : Text} (hkeyword : keyword ∈ [("import" : Text), "from"])
    (ha : a.IsBlank) (hne : s ≠ []) (hlast : ∀ p ∈ s.getLast?, p.isBlank = false) :
    (a ++ (keyword ++ (s ++ t))).strip = keyword ++ (s ++ t.trimRight Point.isBlank) := by
  have hword : keyword ≠ [] ∧ IsPast Point.isBlank keyword := by
    rcases List.mem_pair.mp hkeyword with rfl | rfl
    · exact ⟨by decide, fun p hp => Option.some.inj hp ▸ by decide⟩
    · exact ⟨by decide, fun p hp => Option.some.inj hp ▸ by decide⟩
  have hpast : IsPast Point.isBlank (keyword ++ s) := (isPast_append hword.1).mpr hword.2
  have hend : ∀ p ∈ (keyword ++ s).getLast?, p.isBlank = false := by
    rwa [List.getLast?_append_of_ne_nil keyword hne]
  calc (a ++ (keyword ++ (s ++ t))).strip = (a ++ (keyword ++ s ++ t)).strip := by
        rw [List.append_assoc keyword]
    _ = keyword ++ s ++ t.trimRight Point.isBlank :=
        strip_append ha (List.append_ne_nil_of_left_ne_nil hword.1 s) hpast hend
    _ = keyword ++ (s ++ t.trimRight Point.isBlank) := List.append_assoc ..

/-- The modules of a list are read in order. -/
theorem modules_list {a : Text} (ha : a.IsBlank) (hg : g.IsGap) (hi : Item m i)
    (hr : Follow ms r) : Python.modules (a ++ ("import" ++ (g ++ (i ++ r)))) = m :: ms := by
  obtain ⟨hne, hlast⟩ := hi.getLast?
  have hend : ∀ p ∈ (g ++ i).getLast?, p.isBlank = false := by
    rwa [List.getLast?_append_of_ne_nil g hne]
  have hstrip : (a ++ ("import" ++ (g ++ (i ++ r)))).strip =
      "import" ++ (g ++ (i ++ r.trimRight Point.isBlank)) := by
    rw [← List.append_assoc g, ← List.append_assoc g]
    exact strip_keyword (by simp) ha (List.append_ne_nil_of_left_ne_nil hg.ne_nil i) hend
  rw [modules_of_importPaths (hstrip ▸ fromModule?_import _), hstrip]
  exact hi.importPaths_eq hg hr.trimRight

/-- The module after `from` is read, whatever comes after `import`. -/
theorem modules_member {a h : Text} (ha : a.IsBlank) (hg : g.IsGap) (hpath : IsDotted m path)
    (hh : h.IsGap) (hr : IsPast Point.isWord r) :
    Python.modules (a ++ ("from" ++ (g ++ (path ++ (h ++ ("import" ++ r)))))) = [m] := by
  obtain ⟨d, rfl, hname, hd, hdPath⟩ := hpath.exists_rest
  have hdWord : IsPast Point.isWord d := by
    refine hd.imp fun p hp => ?_
    obtain rfl : p = .scalar '.' := by simpa using hp
    decide
  -- The line is stripped before it is read, which takes away blanks in front and behind only.
  have hend : ∀ p ∈ (g ++ (m ++ (d ++ (h ++ "import"))) : Text).getLast?, p.isBlank = false := by
    have hlast : ∀ s : Text, (s ++ "import").getLast? = some (.scalar 't') :=
      fun s => List.getLast?_append_of_ne_nil s (by decide)
    simp only [← List.append_assoc]
    rw [hlast]
    exact fun p hp => Option.some.inj hp ▸ by decide
  have hstrip : (a ++ ("from" ++ (g ++ (m ++ d ++ (h ++ ("import" ++ r)))))).strip =
      "from" ++ (g ++ (m ++ (d ++ (h ++ ("import" ++ r.trimRight Point.isBlank))))) := by
    have hline := @strip_keyword _ _ _ r (by simp : ("from" : Text) ∈ _) ha
      (List.append_ne_nil_of_left_ne_nil hg.ne_nil _) hend
    simpa only [List.append_assoc] using hline
  refine modules_of_fromModule? (fromModule?_eq_some_iff.mpr ?_)
  exact ⟨g, d, h, _, hg, hname, hdWord, hdPath, hh, hr.of_isPrefix (trimRight_isPrefix r), hstrip⟩

/-- A relative path after `from` gives no module. -/
theorem modules_relative {a : Text} (ha : a.IsBlank) (hg : g.IsGap) :
    Python.modules (a ++ ("from" ++ (g ++ .scalar '.' :: r))) = [] := by
  have hend : ∀ p ∈ (g ++ [Point.scalar '.']).getLast?, p.isBlank = false := by
    rw [List.getLast?_concat]
    exact fun p hp => Option.some.inj hp ▸ by decide
  have hstrip : (a ++ ("from" ++ (g ++ Point.scalar '.' :: r))).strip =
      "from" ++ (g ++ .scalar '.' :: r.trimRight Point.isBlank) := by
    have hline := @strip_keyword _ _ _ r (by simp : ("from" : Text) ∈ _) ha
      (List.append_ne_nil_of_left_ne_nil hg.ne_nil _) hend
    simpa only [List.append_assoc, List.singleton_append] using hline
  rw [modules_of_importPaths (hstrip ▸ fromModule?_relative hg _), hstrip, importPaths_from]
  rfl

/-- A line that begins with no keyword and a blank gives none either. -/
theorem modules_other {line : Text} (hother : ∀ keyword ∈ [("import" : Text), "from"], ∀ p r,
    line.strip = keyword ++ p :: r → p.isBlank = false) : Python.modules line = [] := by
  -- What is read stands behind a keyword and a gap, so that a blank follows the keyword.
  have hgap {keyword g r : Text} (hkeyword : keyword ∈ [("import" : Text), "from"])
      (hg : g.IsGap) (hline : line.strip = keyword ++ (g ++ r)) : False := by
    cases g with
    | nil => exact hg.ne_nil rfl
    | cons p g =>
      have hp : p.isBlank = true := hg.isBlank p List.mem_cons_self
      rw [hother keyword hkeyword p (g ++ r) hline] at hp
      cases hp
  have hfrom : fromModule? line.strip = none := by
    cases hread : fromModule? line.strip with
    | none => rfl
    | some n =>
      obtain ⟨g, d, h, r, hg, -, -, -, -, -, hline⟩ := fromModule?_eq_some_iff.mp hread
      exact (hgap (by simp) hg hline).elim
  have hpaths : importPaths line.strip = [] := by
    refine List.eq_nil_iff_forall_not_mem.mpr fun path hpath => ?_
    obtain ⟨g, before, r, hg, -, -, -, hline⟩ := mem_importPaths_iff.mp hpath
    exact hgap (by simp) hg hline
  rw [modules_of_importPaths hfrom, hpaths]
  rfl

/-- The modules of a line that imports them are read completely and in order. -/
theorem LineImports.modules_eq {line : Text} (h : LineImports ms line) :
    Python.modules line = ms := by
  cases h with
  | list ha hg hi hr => exact modules_list ha hg hi hr
  | member ha hg hpath hh hr => exact modules_member ha hg hpath hh hr
  | relative ha hg => exact modules_relative ha hg
  | other hother => exact modules_other hother

/-! ## Modules that are no names -/

/-- A line lists a path that begins with a dot: the path stands behind `import` and perhaps other
items. -/
def ListsDotted (line : Text) : Prop := ∃ g before r : Text, g.IsGap ∧ Leads before ∧
  line.strip = "import" ++ (g ++ (before ++ Point.scalar '.' :: r))

/-- Only a path that begins with a dot has no first name. -/
theorem firstName_eq_nil_iff (h : IsRun path) :
    firstName path = [] ↔ ∃ r, path = .scalar '.' :: r := by
  constructor
  · intro hname
    cases path with
    | nil => exact absurd rfl h.ne_nil
    | cons p r =>
      by_cases hp : (p != Point.scalar '.') = true
      · have hcons : firstName (p :: r) = p :: firstName r := List.takeWhile_cons_of_pos hp
        rw [hcons] at hname
        cases hname
      · obtain rfl : p = .scalar '.' := by simpa using hp
        exact ⟨r, rfl⟩
  · rintro ⟨r, rfl⟩
    exact List.takeWhile_cons_of_neg (by simp)

/-- A module without a name is read exactly if a path begins with a dot. -/
theorem nil_mem_modules_iff {line : Text} : [] ∈ Python.modules line ↔ ListsDotted line := by
  constructor
  · intro h
    cases hread : fromModule? line.strip with
    | some n =>
      obtain ⟨g, d, h', r, -, hn, -⟩ := fromModule?_eq_some_iff.mp hread
      rw [modules_of_fromModule? hread, List.mem_singleton] at h
      exact absurd h.symm hn.ne_nil
    | none =>
      rw [modules_of_importPaths hread] at h
      obtain ⟨path, hpath, hname⟩ := List.mem_map.mp h
      obtain ⟨g, before, r, hg, hbefore, hrun, -, hline⟩ := mem_importPaths_iff.mp hpath
      obtain ⟨d, rfl⟩ := (firstName_eq_nil_iff hrun).mp hname
      exact ⟨g, before, d ++ r, hg, hbefore, hline⟩
  · rintro ⟨g, before, r, hg, hbefore, hline⟩
    -- The path goes on behind the dot as far as it can.
    have hsplit : Point.scalar '.' :: r =
        (.scalar '.' :: r.takeWhile isPath) ++ r.dropWhile isPath := by
      rw [List.cons_append, List.takeWhile_append_dropWhile]
    have hrun : IsRun (.scalar '.' :: r.takeWhile isPath) := by
      refine ⟨List.cons_ne_nil _ _, List.forall_mem_cons.mpr ⟨by decide, fun p hp => ?_⟩⟩
      exact List.mem_takeWhile_imp hp
    have hpath : (.scalar '.' :: r.takeWhile isPath) ∈ importPaths line.strip :=
      mem_importPaths_iff.mpr ⟨g, before, _, hg, hbefore, hrun, isPast_dropWhile isPath r,
        hsplit ▸ hline⟩
    rw [modules_of_importPaths (hline ▸ fromModule?_import _)]
    exact List.mem_map.mpr ⟨_, hpath, (firstName_eq_nil_iff hrun).mpr ⟨_, rfl⟩⟩

/-- What stands before a path in a list ends with no part of a word. -/
theorem Leads.isWord_getLast? {s : Text} (h : Leads r)
    (hs : ∀ p ∈ s.getLast?, p.isWord = false) : ∀ p ∈ (s ++ r).getLast?, p.isWord = false := by
  induction h generalizing s with
  | nil => rwa [List.append_nil]
  | @item path q a b r hpath hq ha hb hr ih =>
    have hitem : s ++ (path ++ (q ++ (a ++ .scalar ',' :: (b ++ r)))) =
        (s ++ (path ++ (q ++ (a ++ .scalar ',' :: b)))) ++ r := by simp
    rw [hitem]
    refine ih fun p hp => ?_
    -- The item ends with a comma, or with the blanks behind it.
    have hlast : (s ++ (path ++ (q ++ (a ++ .scalar ',' :: b)))).getLast? =
        (Point.scalar ',' :: b).getLast? := by
      simp only [← List.append_assoc]
      exact List.getLast?_append_of_ne_nil _ (List.cons_ne_nil _ _)
    rw [hlast] at hp
    rcases List.mem_cons.mp (List.mem_of_mem_getLast? hp) with rfl | hp
    · decide
    · exact Point.isWord_of_isBlank (hb p hp)

/-- A name behind a keyword and perhaps other items is held by the line, if it ends there. -/
theorem holdsWord_of_leads {a keyword before m : Text} (hg : g.IsGap) (hbefore : Leads before)
    (hr : IsPast Point.isWord r) :
    (a ++ (keyword ++ (g ++ (before ++ (m ++ r))))).HoldsWord m := by
  have hgap : ∀ p ∈ (a ++ (keyword ++ g)).getLast?, p.isWord = false := by
    rw [← List.append_assoc, List.getLast?_append_of_ne_nil _ hg.ne_nil]
    exact fun p hp => Point.isWord_of_isBlank (hg.isBlank p (List.mem_of_mem_getLast? hp))
  refine ⟨a ++ (keyword ++ g) ++ before, r, by simp, fun p hp => ?_, fun p hp => ?_⟩
  · simp [hbefore.isWord_getLast? hgap p hp]
  · simp [hr p hp]

/-- A module with a name is a word on the line. -/
theorem isName_of_mem_modules {line m : Text} (h : m ∈ Python.modules line) (hne : m ≠ []) :
    IsName m ∧ line.HoldsWord m := by
  obtain ⟨a, b, hline, -, hb⟩ := exists_strip line
  cases hread : fromModule? line.strip with
  | some n =>
    obtain ⟨g, d, h', r, hg, hn, hd, -, hh, -, hstrip⟩ := fromModule?_eq_some_iff.mp hread
    rw [modules_of_fromModule? hread, List.mem_singleton] at h
    subst h
    have hgap : IsPast isPath (h' ++ ("import" ++ (r ++ b))) := isPast_gap hh
    refine ⟨hn, ?_⟩
    rw [hline, hstrip]
    simpa only [List.append_assoc, List.nil_append] using
      holdsWord_of_leads (a := a) hg .nil (hd.append (isPast_isWord hgap))
  | none =>
    rw [modules_of_importPaths hread] at h
    obtain ⟨path, hpath, rfl⟩ := List.mem_map.mp h
    obtain ⟨g, before, r, hg, hbefore, hrun, hr, hstrip⟩ := mem_importPaths_iff.mp hpath
    -- Up to the first dot there are word characters only.
    have hname : IsName (firstName path) := by
      refine ⟨hne, fun p hp => ?_⟩
      have hpoint : p ≠ .scalar '.' := by simpa using List.mem_takeWhile_imp hp
      have hp : isPath p = true := hrun.isPath p (List.takeWhile_subset _ hp)
      simpa [isPath, hpoint] using hp
    have hdot : IsPast Point.isWord (path.dropWhile (· != Point.scalar '.')) := by
      refine (isPast_dropWhile _ path).imp fun p hp => ?_
      obtain rfl : p = .scalar '.' := by simpa using hp
      decide
    have hsplit : path = firstName path ++ path.dropWhile (· != Point.scalar '.') :=
      List.takeWhile_append_dropWhile.symm
    have hend : IsPast Point.isWord (path.dropWhile (· != Point.scalar '.') ++ (r ++ b)) :=
      hdot.append ((isPast_isWord hr).append hb.isPast_isWord)
    refine ⟨hname, ?_⟩
    have hholds := @holdsWord_of_leads g _ a "import" before (firstName path) hg hbefore hend
    rw [hline, hstrip]
    rw [← List.append_assoc (firstName path), ← hsplit] at hholds
    simpa only [List.append_assoc] using hholds

end Modules

/-- What the evidence of a module says in full. -/
def requirement (m : Text) : Text :=
  ("Third-party Python import \"" : Text) ++ m ++ "\" requires pip install"

/-- The module is one of a third party. -/
def isForeign (m : Text) : Bool := !standardLibrary.contains m

/-- Every module of the standard library has a name. -/
theorem nil_notMem_standardLibrary : [] ∉ standardLibrary := by
  have hstring : [] = Text.ofString "" := rfl
  rw [hstring, standardLibrary, List.mem_map_of_injective ofString_injective]
  decide +kernel

/-- The modules of third parties on lines that import modules. -/
theorem map_thirdParty_eq {mss : List (List Text)} {lines : List Text}
    (h : List.Forall₂ LineImports mss lines) :
    lines.map thirdParty = mss.map (·.filter isForeign) := by
  induction h with
  | nil => rfl
  | @cons ms line mss lines hline _ ih =>
    have hthird : thirdParty line = ms.filter isForeign := by
      rw [thirdParty, hline.modules_eq]
      rfl
    rw [List.map_cons, List.map_cons, hthird, ih]

/-- The evidence of a script is one piece for each module of a third party. -/
theorem pythonEvidence_eq (rules : RuleTables) (file content : Text) :
    pythonEvidence rules file content = (rules.imports.get? "python").elim []
      fun r => (firstSeen thirdParty content).map (importOf r requirement file) :=
  importEvidence_eq rules "python" thirdParty requirement file content

end Script.Python

open Script Script.Python

/-- Imports are read completely and in order. If the lines of a script import modules, each line
those of its list, then the evidence of the script is one piece for each distinct module of a third
party, in the order in which these first occur, with the number of the first line that imports the
module. -/
theorem imports_read_completely (rules : RuleTables) (file content : Text) (mss : List (List Text))
    (h : List.Forall₂ LineImports mss content.lines) :
    pythonEvidence rules file content = (rules.imports.get? "python").elim [] fun r =>
      (firstOccurrences (mss.map (·.filter isForeign))).map (importOf r requirement file) := by
  rw [← map_thirdParty_eq h, ← firstSeen_eq]
  exact pythonEvidence_eq rules file content

namespace Script.Python

/-- A script that imports modules in each of the ways. -/
def sampleScript : Text :=
  "import b as c , os.a # e\nfrom . import f\n  from a.b  import g\nx = 1\nimport h"

/-- A name without a dot is a path of its own. -/
theorem isDotted_self {n : Text} (h : IsName n) : IsDotted n n := by
  simpa using @IsDotted.path n [] h (by simp)

/-- The lines of the sample script import these modules. -/
theorem lineImports_sample :
    List.Forall₂ LineImports [["b", "os"], [], ["a"], [], ["h"]] sampleScript.lines := by
  have hname (n : Text) (h : n ≠ [] ∧ ∀ p ∈ n, p.isWord = true) : IsName n := ⟨h.1, h.2⟩
  -- Each line is one of the forms that there are, and its parts are looked at one by one.
  have hgap (g : Text) (h : g ≠ [] ∧ ∀ p ∈ g, p.isBlank = true) : g.IsGap := ⟨h.1, h.2⟩
  have hnone : Text.IsBlank [] := by simp [Text.IsBlank]
  have hblank : (" " : Text).IsGap := hgap " " (by decide)
  have hlist : LineImports ["b", "os"] "import b as c , os.a # e" := by
    have hb : Item "b" "b as c" := .mk (isDotted_self (hname _ (by decide)))
      (.named hblank hblank (hname "c" (by decide)))
    have hos : Item "os" "os.a" := .mk (@IsDotted.path "os" ["a"] (hname _ (by decide))
      (by simpa using hname "a" (by decide))) .none
    have hend : Follow [] (" " ++ "# e" : Text) := .done hblank.isBlank (by decide)
    exact .list hnone hblank hb (.next hblank.isBlank hblank.isBlank hos hend)
  have hrelative : LineImports [] "from . import f" :=
    .relative (r := " import f") hnone hblank
  have hmember : LineImports ["a"] "  from a.b  import g" :=
    .member (r := " g") (hgap "  " (by decide)).isBlank hblank
      (@IsDotted.path "a" ["b"] (hname _ (by decide)) (by simpa using hname "b" (by decide)))
      (hgap "  " (by decide)) (Text.isPast_cons.mpr (by decide))
  have hother : LineImports [] "x = 1" := .other (by
    have hstrip : ("x = 1" : Text).strip = "x = 1" := by decide
    rw [hstrip]
    intro keyword hkeyword p r hline
    rcases List.mem_pair.mp hkeyword with rfl | rfl <;> cases hline)
  have hlast : LineImports ["h"] "import h" :=
    .list hnone hblank (.mk (isDotted_self (hname "h" (by decide))) .none)
      (.done hnone (by simp))
  have hlines : sampleScript.lines = [("import b as c , os.a # e" : Text), "from . import f",
      "  from a.b  import g", "x = 1", "import h"] := by decide +kernel
  rw [hlines]
  exact .cons hlist (.cons hrelative (.cons hmember (.cons hother (.cons hlast .nil))))

end Script.Python

/-- The evidence of a script that imports modules in each of the ways. -/
theorem imports_read_completely_sample :
    List.Forall₂ LineImports [["b", "os"], [], ["a"], [], ["h"]] sampleScript.lines ∧
    pythonEvidence Bundled.tables "f.py" sampleScript =
      [(("b" : Text), 1), ("a", 3), ("h", 5)].map
        (importOf ⟨"third-party-import:", .reviewDesktop⟩ requirement "f.py") := by
  have hlibrary : Text.ofString "os" ∈ standardLibrary := by
    rw [standardLibrary, List.mem_map_of_injective Text.ofString_injective]
    decide +kernel
  have hthird : ∀ s ∈ ["b", "a", "h"], Text.ofString s ∉ standardLibrary := by
    rw [standardLibrary]
    simp only [List.mem_map_of_injective Text.ofString_injective]
    decide +kernel
  have hforeign : [[("b" : Text), "os"], [], ["a"], [], ["h"]].map (List.filter isForeign) =
      [[("b" : Text)], [], ["a"], [], ["h"]] := by
    simp [isForeign, hlibrary, hthird]
  refine ⟨lineImports_sample, ?_⟩
  rw [imports_read_completely Bundled.tables "f.py" sampleScript _ lineImports_sample, hforeign]
  rfl

/-- A name with a number names a module of a third party: the module is a name on the line with the
number, as a word. -/
structure Script.Python.NamesModule (content : Text) (x : Text × Nat) : Prop where
  /-- The module is a name of word characters. -/
  isName : IsName x.1
  /-- There is no dot in it. -/
  dotless : .scalar '.' ∉ x.1
  /-- It is not in the standard library. -/
  foreign : x.1 ∉ standardLibrary
  /-- It is a word on the line. -/
  onLine : ∃ i line, x.2 = i + 1 ∧ content.lines[i]? = some line ∧ line.HoldsWord x.1

/-- A number is that of the first line that lists a path that begins with a dot. -/
def Script.Python.IsFirstDotted (content : Text) (n : Nat) : Prop :=
  ∃ i line, content.lines[i]? = some line ∧ ListsDotted line ∧ n = i + 1 ∧
    ∀ j < i, ∀ l, content.lines[j]? = some l → ¬ListsDotted l

/-- What is reported of the imports in a script names modules, except where a path begins with a
dot. All names are distinct, and each that is not empty names a module of a third party that is a
word on its line. The empty name is reported exactly if there is a path that begins with a dot in a
list, with the number of the first line that has one. So all that is reported names a module exactly
if there is no such path. -/
theorem imports_named_unless_dotted (rules : RuleTables) (file content : Text) :
    (pythonEvidence rules file content = (rules.imports.get? "python").elim []
      fun r => (firstSeen thirdParty content).map (importOf r requirement file)) ∧
    ((firstSeen thirdParty content).map (·.1)).Nodup ∧
    (∀ x ∈ firstSeen thirdParty content, x.1 ≠ [] → NamesModule content x) ∧
    (∀ n, ([], n) ∈ firstSeen thirdParty content ↔ IsFirstDotted content n) ∧
    ((∀ x ∈ firstSeen thirdParty content, NamesModule content x) ↔
      ∀ line ∈ content.lines, ¬ListsDotted line) := by
  have hforeign {m line : Text} : m ∈ thirdParty line ↔
      m ∈ Python.modules line ∧ m ∉ standardLibrary := by
    simp [thirdParty, List.mem_filter]
  have hempty {line : Text} : [] ∈ thirdParty line ↔ ListsDotted line := by
    rw [hforeign, nil_mem_modules_iff, and_iff_left nil_notMem_standardLibrary]
  have hnames : ∀ x ∈ firstSeen thirdParty content, x.1 ≠ [] → NamesModule content x := by
    intro x hx hne
    obtain ⟨i, line, hline, hname, hnumber, -⟩ := mem_firstSeen_iff.mp hx
    obtain ⟨hmodule, hlibrary⟩ := hforeign.mp hname
    obtain ⟨hisName, hholds⟩ := isName_of_mem_modules hmodule hne
    refine ⟨hisName, fun hdot => ?_, hlibrary, i, line, hnumber, hline, hholds⟩
    exact absurd (hisName.isWord _ hdot) (by decide)
  have hdotted (n : Nat) : ([], n) ∈ firstSeen thirdParty content ↔ IsFirstDotted content n := by
    rw [mem_firstSeen_iff]
    simp only [hempty, IsFirstDotted]
  refine ⟨pythonEvidence_eq rules file content, nodup_firstSeen thirdParty content, hnames, hdotted,
    fun hall line hline hlists => ?_, fun hnone x hx => hnames x hx fun hnil => ?_⟩
  · -- The line, or an earlier one, has the empty name reported.
    obtain ⟨i, hi⟩ := List.mem_iff_getElem?.mp hline
    obtain ⟨n, -, hn⟩ := exists_mem_firstSeen hi (hempty.mpr hlists)
    exact (hall _ hn).isName.ne_nil rfl
  · obtain ⟨i, line, hline, hname, -⟩ := mem_firstSeen_iff.mp hx
    exact hnone line (List.mem_of_getElem? hline) (hempty.mp (hnil ▸ hname))

/-- A relative path in a list is reported as a module without a name. -/
theorem imports_nameless :
    (pythonEvidence Bundled.tables "f.py" "import .x").map (fun e => (e.signal, e.line)) =
      [(("third-party-import:" : Text), some 1)] ∧
    ¬∀ content, ∀ x ∈ firstSeen thirdParty content, NamesModule content x := by
  have hfound : firstSeen thirdParty "import .x" = [([], 1)] := by
    have hline : thirdParty "import .x" = [[]] := by
      have hmodules : Python.modules "import .x" = [[]] := by decide +kernel
      rw [thirdParty, hmodules]
      simp [nil_notMem_standardLibrary]
    have hlines : ("import .x" : Text).lines = [("import .x" : Text)] := by decide +kernel
    rw [firstSeen_eq, hlines, List.map_singleton, hline]
    rfl
  refine ⟨?_, fun h => ?_⟩
  · rw [pythonEvidence_eq, hfound]
    rfl
  · have hnames := h "import .x" ([], 1) (hfound ▸ List.mem_singleton_self _)
    exact hnames.isName.ne_nil rfl

end SurfaceAudit
