import SurfaceAudit.Proofs.Tree

/-!
# Lookups on a disk that gains a file

Paths that lead to something lead to the same place on a disk with one more file
(`Disk.find?_grown`), and files that could be read are read as before (`Disk.read_grown`). The plain
form of a path depends on the links alone, which are where they were (`Disk.plainNames_eq`).
-/

namespace SurfaceAudit

namespace Disk

/-- A disk is another one with a file that is new at a place. -/
structure Gains (d : Disk) (content : List UInt8) (place : List Text) (d' : Disk) : Prop where
  /-- The tree has a new file. -/
  root : Node.Gains content place d.root d'.root
  /-- The current directory is the same. -/
  current : d'.current = d.current

variable {content : List UInt8}

/-- The links among entries add the steps of each part. -/
theorem go_append (a b : List (Text × Node)) :
    linkSteps.go (a ++ b) = linkSteps.go a + linkSteps.go b := by
  induction a with
  | nil => simp [linkSteps.go]
  | cons e r ih =>
    rw [List.cons_append, linkSteps.go, linkSteps.go, ih]
    omega

/-- A chain has no links. -/
theorem linkSteps_chain (place : List Text) : linkSteps (Node.chain content place) = 0 := by
  induction place with
  | nil => rw [Node.chain, linkSteps]
  | cons name r ih => rw [Node.chain, linkSteps, linkSteps.go, linkSteps.go, ih]

/-- A file adds no links. -/
theorem linkSteps_eq {place : List Text} {m m' : Node} (h : Node.Gains content place m m') :
    linkSteps m' = linkSteps m := by
  induction h with
  | fresh _ =>
    rw [linkSteps, linkSteps, go_append, go_append, linkSteps.go, linkSteps_chain]
    omega
  | inside _ _ ih => rw [linkSteps, linkSteps, go_append, go_append, linkSteps.go, linkSteps.go, ih]

section Follow

variable {root root' : Node}

/-- In a directory, the first name decides how the names are followed. -/
theorem followWith_cons {jump : List Text → List Text → Except FileDefect Reached}
    {here : List Text} {es : List (Text × Node)} (hes : root.at? here = some (.directory es))
    (name : Text) (r : List Text) : followWith root jump here (name :: r) =
      if name == Path.up then followWith root jump here.dropLast r
      else if nameLimit < byteCount name then .error .nameTooLong
      else match Node.entry? (.directory es) name with
        | none => if r.isEmpty then .ok (here ++ [name], none) else .error .missing
        | some (.link target) =>
          jump (if Path.isAbsolute target then [] else here) (Path.names target ++ r)
        | some _ => followWith root jump (here ++ [name]) r := by
  rw [followWith, hes]
  rfl

/-- Names lead on from a directory only. -/
theorem exists_directory_of_followWith
    {jump : List Text → List Text → Except FileDefect Reached} {here r : List Text} {name : Text}
    {reached : Reached} (h : followWith root jump here (name :: r) = .ok reached) :
    ∃ es, root.at? here = some (.directory es) := by
  unfold followWith at h
  split at h
  · cases h
  · cases h
  · cases h
  · rename_i es hes
    exact ⟨es, hes⟩

/-- Names that lead to something lead to the same place, if they do where a link leads. -/
theorem followWith_grown (h : Node.Grown content root root')
    {jump jump' : List Text → List Text → Except FileDefect Reached}
    (hjump : ∀ here names q n, jump here names = .ok (q, some n) →
      ∃ n', jump' here names = .ok (q, some n') ∧ Node.Grown content n n')
    {here names q : List Text} {n : Node}
    (hn : followWith root jump here names = .ok (q, some n)) :
    ∃ n', followWith root' jump' here names = .ok (q, some n') ∧ Node.Grown content n n' := by
  induction names generalizing here with
  | nil =>
    simp only [followWith, Except.ok.injEq, Prod.mk.injEq] at hn
    obtain ⟨rfl, hn⟩ := hn
    obtain ⟨n', hn', hg⟩ := h.at? hn
    exact ⟨n', by rw [followWith, hn'], hg⟩
  | cons name r ih =>
    obtain ⟨es, hes⟩ := exists_directory_of_followWith hn
    obtain ⟨m', hm', hg⟩ := h.at? hes
    obtain ⟨es', rfl⟩ := hg.exists_directory
    rw [followWith_cons hes] at hn
    rw [followWith_cons hm']
    by_cases hup : (name == Path.up) = true
    · rw [if_pos hup] at hn ⊢
      exact ih hn
    rw [if_neg hup] at hn ⊢
    by_cases hlong : nameLimit < byteCount name
    · rw [if_pos hlong] at hn
      cases hn
    rw [if_neg hlong] at hn ⊢
    -- What the name leads to is there in both trees, and of one kind.
    cases hk : Node.entry? (.directory es) name with
    | none =>
      simp only [hk] at hn
      split at hn <;> cases hn
    | some k =>
      obtain ⟨k', hk', hgk⟩ := hg.entry? hk
      rw [hk] at hn
      rw [hk']
      cases k with
      | file bytes =>
        rw [hgk.eq_file]
        exact ih hn
      | link target =>
        rw [hgk.eq_link]
        exact hjump _ _ _ _ hn
      | directory ks =>
        obtain ⟨ks', rfl⟩ := hgk.exists_directory
        exact ih hn

/-- Names that lead to something lead to the same place. -/
theorem follow_grown (h : Node.Grown content root root') (links : Nat) {here names q : List Text}
    {n : Node} (hn : follow root links here names = .ok (q, some n)) :
    ∃ n', follow root' links here names = .ok (q, some n') ∧ Node.Grown content n n' := by
  induction links generalizing here names q n with
  | zero => exact followWith_grown h (fun _ _ _ _ hl => by cases hl) hn
  | succ links ih => exact followWith_grown h (fun _ _ _ _ hl => ih hl) hn

/-- A name that is no link, or leads nowhere, stays when a path is made plain. -/
theorem plainFrom_cons_of_ne_link {here : List Text} {name : Text} (hup : name ≠ Path.up)
    (hl : ∀ target, root.at? (here ++ [name]) ≠ some (.link target)) (bound : Nat) (r : List Text)
    (links : Links) : plainFrom root (bound + 1) here (name :: r) links =
      plainFrom root bound (here ++ [name]) r links := by
  rw [plainFrom, if_neg (by simpa using hup)]
  simp only

/-- Making a path plain looks at nothing but links. -/
theorem plainFrom_eq (h : ∀ place target, root'.at? place = some (.link target) ↔
      root.at? place = some (.link target)) (bound : Nat) (here rest : List Text) (links : Links) :
    plainFrom root' bound here rest links = plainFrom root bound here rest links := by
  induction bound generalizing here rest links with
  | zero => rw [plainFrom, plainFrom]
  | succ bound ih =>
    cases rest with
    | nil => rfl
    | cons name r =>
      -- A step up looks at nothing, and a step down only at whether there is a link.
      by_cases hup : name = Path.up
      · rw [plainFrom, plainFrom, if_pos (by simpa using hup), if_pos (by simpa using hup), ih]
      by_cases hl : ∃ target, root.at? (here ++ [name]) = some (.link target)
      · obtain ⟨target, hl⟩ := hl
        have hl' := (h _ _).mpr hl
        rw [plainFrom, plainFrom, if_neg (by simpa using hup), if_neg (by simpa using hup)]
        simp only [hl, hl', ih]
      · have hl := not_exists.mp hl
        rw [plainFrom_cons_of_ne_link hup hl,
          plainFrom_cons_of_ne_link hup fun target hl' => hl target ((h _ _).mp hl'), ih]

end Follow

variable {place : List Text} {d d' : Disk}

/-- A path that leads to something leads to the same place. -/
theorem locate_grown (h : d.Gains content place d') {path : Text} {q : List Text} {n : Node}
    (hn : d.locate path = .ok (q, some n)) :
    ∃ n', d'.locate path = .ok (q, some n') ∧ Node.Grown content n n' := by
  have hstart : d'.startOf path = d.startOf path := by rw [startOf, startOf, h.current]
  unfold locate at hn ⊢
  split at hn
  · cases hn
  · rename_i hlong
    rw [if_neg hlong, hstart]
    exact follow_grown (.inr ⟨place, h.root⟩) linkLimit hn

/-- What is at a path stays there, and may gain the file. -/
theorem find?_grown (h : d.Gains content place d') {path : Text} {n : Node}
    (hn : d.find? path = some n) : ∃ n', d'.find? path = some n' ∧ Node.Grown content n n' := by
  unfold find? at hn ⊢
  split at hn
  · cases hn
  · rename_i hname
    rw [if_neg hname]
    cases hl : d.locate path with
    | error e =>
      rw [hl] at hn
      cases hn
    | ok reached =>
      obtain ⟨q, node⟩ := reached
      rw [hl] at hn
      subst hn
      obtain ⟨n', hl', hg⟩ := locate_grown h hl
      exact ⟨n', by rw [hl'], hg⟩

/-- A file that can be read holds the same bytes. -/
theorem read_grown (h : d.Gains content place d') {path : Text} {bytes : List UInt8}
    (hb : d.read path = .ok bytes) : d'.read path = .ok bytes := by
  unfold read at hb ⊢
  split at hb
  · cases hb
  · split at hb
    · rename_i hl
      cases hb
      obtain ⟨n', hl', hg⟩ := locate_grown h hl
      rw [hl', hg.eq_file]
    · cases hb
    · cases hb
    · cases hb

/-- The plain form of a path is the same, if it has one on both disks. -/
theorem plainNames_eq (h : d.Gains content place d') {path : Text} {names names' : List Text}
    (hn : d.plainNames path = .ok names) (hn' : d'.plainNames path = .ok names') :
    names' = names := by
  have hgrown : Node.Grown content d.root d'.root := .inr ⟨place, h.root⟩
  have hplain (bound : Nat) (here rest : List Text) (links : Links) :=
    plainFrom_eq (fun _ _ => hgrown.at?_link_iff) bound here rest links
  have hstart : d'.startOf path = d.startOf path := by rw [startOf, startOf, h.current]
  unfold plainNames at hn hn'
  simp only [linkSteps_eq h.root, hplain, hstart] at hn'
  split at hn
  · cases hn
  · rename_i hname
    rw [hname] at hn'
    simp only at hn hn'
    split at hn
    · rename_i reached links hreached
      rw [hreached] at hn'
      cases hn
      cases hn'
      rfl
    · -- A circle of links that leads somewhere all the same: the place does not depend on the tree.
      rename_i reached links hreached
      rw [hreached] at hn'
      simp only at hn hn'
      split at hn
      · cases hn
      · split at hn'
        · cases hn'
        · cases hn
          cases hn'
          rfl

end Disk

end SurfaceAudit
