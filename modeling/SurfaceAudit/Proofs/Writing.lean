import SurfaceAudit.Proofs.Places

/-!
# A file that was written can be read

Writing to a path puts a file at the place that the path leads to. What is on the way there is of
the kind it was (`Node.at?_put_alike`), so the path leads to the same place afterwards
(`Disk.follow_put`), and what was written is read there (`Disk.read_of_write`).
-/

namespace SurfaceAudit

namespace Node

/-- Two nodes are of one kind, and if they are links, they lead to the same path. -/
inductive Alike : Node → Node → Prop where
  /-- Both are files. -/
  | file (bytes bytes' : List UInt8) : Alike (.file bytes) (.file bytes')
  /-- Both are the same link. -/
  | link (target : Text) : Alike (.link target) (.link target)
  /-- Both are directories. -/
  | directory (es es' : List (Text × Node)) : Alike (.directory es) (.directory es')

/-- A node is of its own kind. -/
theorem Alike.refl (n : Node) : Alike n n := by
  cases n with
  | file bytes => exact .file bytes bytes
  | link target => exact .link target
  | directory es => exact .directory es es

/-- An entry that is set is had by its name, and the others are as they were. -/
theorem entry?_putEntry (name other : Text) (n : Node) (es : List (Text × Node)) :
    Node.entry? (.directory (putEntry name n es)) other =
      if name = other then some n else Node.entry? (.directory es) other := by
  change ((putEntry name n es).find? (·.1 == other)).map (·.2) =
    if name = other then some n else (es.find? (·.1 == other)).map (·.2)
  -- The new entry goes where its name is, or before the first name that is greater.
  induction es with
  | nil => by_cases h : name = other <;> simp [putEntry, h]
  | cons e r ih =>
    rw [putEntry]
    split
    · rename_i he
      have hname : e.1 = name := eq_of_beq he
      by_cases h : name = other <;> simp [hname, h]
    · rename_i he
      split
      · by_cases h : name = other <;> simp [h]
      · by_cases ho : e.1 = other
        · have h : name ≠ other := fun h => he (by simp [ho, h])
          simp [ho, h]
        · simpa [ho] using ih

/-- The tree is a directory if there is one in it, and so is what is above that. -/
theorem exists_directory_above {n : Node} {q : List Text} {es : List (Text × Node)}
    (h : n.at? q = some (.directory es)) :
    (∃ es, n = .directory es) ∧ ∃ es, n.at? q.dropLast = some (.directory es) := by
  rcases List.eq_nil_or_concat q with rfl | ⟨above, name, hq⟩
  · exact ⟨⟨es, Option.some.inj h⟩, es, h⟩
  rw [List.concat_eq_append] at hq
  subst hq
  rw [List.dropLast_concat]
  rw [at?_append] at h
  obtain ⟨k, hk, h⟩ := Option.bind_eq_some_iff.mp h
  obtain ⟨ks, _, rfl, -, -⟩ := exists_directory_of_at? h
  refine ⟨?_, ks, hk⟩
  cases above with
  | nil => exact ⟨ks, Option.some.inj hk⟩
  | cons x above =>
    obtain ⟨ns, _, hn, -, -⟩ := exists_directory_of_at? hk
    exact ⟨ns, hn⟩

/-- A node that is put below a place is put below what is there. -/
theorem at?_put_append {n k : Node} {root : Node} {q : List Text} (h : root.at? q = some k)
    (below : List Text) :
    (put n (q ++ below) root).at? (q ++ below) = (put n below k).at? below := by
  induction q generalizing root with
  | nil =>
    cases h
    rfl
  | cons name r ih =>
    obtain ⟨es, m, rfl, hm, hk⟩ := exists_directory_of_at? h
    have hfind : (es.find? (·.1 == name)).map (·.2) = some m := hm
    rw [List.cons_append, put, at?, entry?_putEntry, if_pos rfl, hfind]
    exact ih hk

/-- A node that is put to a place where something is can be found there. -/
theorem at?_put_self {n k root : Node} {place : List Text} (h : root.at? place = some k) :
    (put n place root).at? place = some n := by
  have := at?_put_append (n := n) h []
  rw [List.append_nil] at this
  rw [this]
  rfl

/-- A node that is put into a directory can be found there. -/
theorem at?_put_concat {n root : Node} {above : List Text} {es : List (Text × Node)}
    (h : root.at? above = some (.directory es)) (name : Text) :
    (put n (above ++ [name]) root).at? (above ++ [name]) = some n := by
  rw [at?_put_append h, put, at?, entry?_putEntry, if_pos rfl]
  rfl

/-- If a file is put to a place where at most a file is, everything else is of the kind it was. -/
theorem at?_put_alike (content : List UInt8) {root : Node} {place : List Text}
    (hfree : ∀ k, root.at? place = some k → k.isFile = true) {q : List Text} {m : Node}
    (h : root.at? q = some m) :
    ∃ m', (put (.file content) place root).at? q = some m' ∧ Alike m m' := by
  -- The two paths go down together until they part; from there on nothing is changed.
  induction place generalizing root q with
  | nil =>
    cases root with
    | file bytes =>
      cases q with
      | nil =>
        cases h
        exact ⟨_, rfl, .file bytes content⟩
      | cons x q => simp [at?, entry?, entries] at h
    | link target => cases hfree _ rfl
    | directory es => cases hfree _ rfl
  | cons name r ih =>
    cases root with
    | file bytes => exact ⟨m, h, .refl m⟩
    | link target => exact ⟨m, h, .refl m⟩
    | directory es =>
      rw [put]
      cases q with
      | nil =>
        cases h
        exact ⟨_, rfl, .directory _ _⟩
      | cons x q =>
        rw [at?, entry?_putEntry]
        by_cases hx : name = x
        · obtain ⟨_, k, heq, hk, hm⟩ := exists_directory_of_at? h
          cases heq
          subst hx
          have hfind : (es.find? (·.1 == name)).map (·.2) = some k := hk
          rw [if_pos rfl, hfind]
          refine ih (fun j hj => hfree j ?_) hm
          rw [at?, hk]
          exact hj
        · rw [if_neg hx]
          exact ⟨m, h, .refl m⟩

end Node

namespace Disk

section Follow

variable {content : List UInt8} {root : Node} {place : List Text} {node : Option Node}

/-- Names that lead to a place with a file or with nothing lead to the file that is put there, if
they do where a link leads. -/
theorem followWith_put (hat : root.at? place = node)
    (hnode : ∀ k, node = some k → k.isFile = true)
    {jump jump' : List Text → List Text → Except FileDefect Reached}
    (hjump : ∀ here names, (root.at? here).isSome = true → jump here names = .ok (place, node) →
      jump' here names = .ok (place, some (.file content)))
    {here names : List Text} (hhere : (root.at? here).isSome = true)
    (h : followWith root jump here names = .ok (place, node)) :
    followWith (Node.put (.file content) place root) jump' here names =
      .ok (place, some (.file content)) := by
  have hfree : ∀ k, root.at? place = some k → k.isFile = true := fun k hk =>
    hnode k (hat.symm.trans hk)
  induction names generalizing here with
  | nil =>
    cases h
    obtain ⟨k, hk⟩ := Option.isSome_iff_exists.mp hhere
    rw [followWith, Node.at?_put_self hk]
  | cons name r ih =>
    obtain ⟨es, hes⟩ := exists_directory_of_followWith h
    obtain ⟨m', hm', halike⟩ := Node.at?_put_alike content hfree hes
    obtain ⟨es', rfl⟩ : ∃ es', m' = .directory es' := by
      cases halike
      exact ⟨_, rfl⟩
    rw [followWith_cons hes] at h
    rw [followWith_cons hm']
    by_cases hup : (name == Path.up) = true
    · rw [if_pos hup] at h ⊢
      refine ih ?_ h
      obtain ⟨-, ks, hk⟩ := Node.exists_directory_above hes
      rw [hk]
      rfl
    rw [if_neg hup] at h ⊢
    by_cases hlong : nameLimit < byteCount name
    · rw [if_pos hlong] at h
      cases h
    rw [if_neg hlong] at h ⊢
    have hentry : Node.entry? (.directory es) name = root.at? (here ++ [name]) := by
      rw [Node.at?_append, hes]
      simp [Node.at?]
    have hentry' : Node.entry? (.directory es') name =
        (Node.put (.file content) place root).at? (here ++ [name]) := by
      rw [Node.at?_append, hm']
      simp [Node.at?]
    cases hk : Node.entry? (.directory es) name with
    | none =>
      -- Only the place itself may be missing, and then the names end here.
      simp only [hk] at h
      split at h
      · rename_i hr
        cases h
        rw [hentry', Node.at?_put_concat hes, List.isEmpty_iff.mp hr]
        simp only [followWith, Node.at?_put_concat hes]
      · cases h
    | some k =>
      rw [hentry] at hk
      obtain ⟨k', hk', halike⟩ := Node.at?_put_alike content hfree hk
      rw [hentry, hk] at h
      rw [hentry', hk']
      cases halike with
      | file bytes bytes' => exact ih (by rw [hk]; rfl) h
      | link target =>
        refine hjump _ _ ?_ h
        split
        · rfl
        · rw [hes]
          rfl
      | directory ks ks' => exact ih (by rw [hk]; rfl) h

/-- Names that lead on from something other than a link do not end at one, if they do not where a
link leads. -/
theorem ne_link_of_followWith {jump : List Text → List Text → Except FileDefect Reached}
    (hjump : ∀ here names, (∀ target, root.at? here ≠ some (.link target)) →
      ∀ target, jump here names ≠ .ok (place, some (.link target)))
    {here names : List Text} (hhere : ∀ target, root.at? here ≠ some (.link target))
    (target : Text) : followWith root jump here names ≠ .ok (place, some (.link target)) := by
  intro h
  -- A step up ends in a directory, and a step down to a link goes on through `jump`.
  induction names generalizing here with
  | nil =>
    rw [followWith, Except.ok.injEq, Prod.mk.injEq] at h
    exact hhere target h.2
  | cons name r ih =>
    obtain ⟨es, hes⟩ := exists_directory_of_followWith h
    obtain ⟨⟨rs, hroot⟩, ks, hks⟩ := Node.exists_directory_above hes
    have hentry : Node.entry? (.directory es) name = root.at? (here ++ [name]) := by
      rw [Node.at?_append, hes]
      simp [Node.at?]
    rw [followWith_cons hes] at h
    split at h
    · exact ih (fun target hl => by cases hks.symm.trans hl) h
    split at h
    · cases h
    split at h
    · split at h <;> cases h
    · refine hjump _ _ (fun target hl => ?_) target h
      split at hl
      · cases (congrArg some hroot).symm.trans hl
      · cases hes.symm.trans hl
    · rename_i k hlink hk
      refine ih (fun target hl => ?_) h
      rw [hentry, hl] at hk
      exact hlink target (Option.some.inj hk).symm

/-- Names that lead on from something other than a link do not end at one. -/
theorem ne_link_of_follow (links : Nat) {here names : List Text}
    (hhere : ∀ target, root.at? here ≠ some (.link target)) (target : Text) :
    follow root links here names ≠ .ok (place, some (.link target)) := by
  induction links generalizing here names target with
  | zero => exact ne_link_of_followWith (fun _ _ _ _ hl => by cases hl) hhere target
  | succ links ih => exact ne_link_of_followWith (fun _ _ hhere => ih hhere) hhere target

/-- Names that lead to a place without a directory lead to the file that is put there. -/
theorem follow_put (hnode : ∀ es, node ≠ some (.directory es)) (links : Nat)
    {here names : List Text} (hhere : (root.at? here).isSome = true)
    (h : follow root links here names = .ok (place, node)) :
    follow (Node.put (.file content) place root) links here names =
      .ok (place, some (.file content)) := by
  have hat : root.at? place = node := at?_of_follow links h
  by_cases hlink : ∃ target, root.at? here = some (.link target)
  · -- A link is not followed where the names start, so there are none.
    obtain ⟨target, hlink⟩ := hlink
    have hnames : names = [] ∧ place = here := by
      cases names with
      | nil => cases links <;> cases h <;> exact ⟨rfl, rfl⟩
      | cons name r =>
        obtain ⟨es, hes⟩ : ∃ es, root.at? here = some (.directory es) := by
          cases links <;> exact exists_directory_of_followWith h
        cases hlink.symm.trans hes
    obtain ⟨rfl, rfl⟩ := hnames
    cases links <;> rw [follow, followWith, Node.at?_put_self hlink]
  have hfile : ∀ k, node = some k → k.isFile = true := by
    rintro k rfl
    cases k with
    | file bytes => rfl
    | link target => exact absurd h (ne_link_of_follow links (not_exists.mp hlink) target)
    | directory es => exact absurd rfl (hnode es)
  clear hlink
  induction links generalizing here names with
  | zero => exact followWith_put hat hfile (fun _ _ _ hl => by cases hl) hhere h
  | succ links ih => exact followWith_put hat hfile (fun _ _ hhere hl => ih hhere hl) hhere h

end Follow

/-- What was written to a file is read from it, if there is something where its path starts. -/
theorem read_of_write {d d' : Disk} {path : Text} {content : List UInt8}
    (hstart : (d.root.at? (d.startOf path)).isSome = true) (h : d.write path content = .ok d') :
    d'.read path = .ok content := by
  unfold write at h
  split at h
  · cases h
  rename_i hname
  -- The path leads to the same place afterwards, where the file is then found.
  have hput {place : List Text} {node : Option Node} (hl : d.locate path = .ok (place, node))
      (hnode : ∀ es, node ≠ some (.directory es)) :
      ({ d with root := Node.put (.file content) place d.root } : Disk).locate path =
        .ok (place, some (.file content)) := by
    unfold locate at hl ⊢
    split at hl
    · cases hl
    · rename_i hlong
      rw [if_neg hlong]
      exact follow_put hnode linkLimit hstart hl
  split at h
  · cases h
  · rename_i place node hdirectory hl
    cases h
    have hnode : ∀ es, node ≠ some (.directory es) := by
      rintro es rfl
      exact hdirectory _ rfl
    rw [read, hname]
    simp only
    rw [hput hl hnode]
  · cases h

/-- What was written to an absolute path is read from it. -/
theorem read_of_write_absolute {d d' : Disk} {names : List Text} {content : List UInt8}
    (h : d.write (Path.absolute names) content = .ok d') :
    d'.read (Path.absolute names) = .ok content :=
  read_of_write rfl h

end Disk

end SurfaceAudit
