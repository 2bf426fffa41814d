import SurfaceAudit.FileTree.Disk

/-!
# Trees that gain a file

`Node.Gains` says that a tree is another one with one more file, at a place that was free: the
directories on the way there are directories, or are made. What was there stays, but for directories
on the way, which gain the file (`Node.Grown.at?`), and links are where they were
(`Node.Grown.at?_link_iff`).
-/

namespace SurfaceAudit

namespace Node

/-- The entry with a name, where one with the name stands among entries. -/
theorem entry?_self {before after : List (Text × Node)} {name : Text} (n : Node)
    (h : ∀ e ∈ before, e.1 ≠ name) :
    Node.entry? (directory (before ++ (name, n) :: after)) name = some n := by
  have hnone : before.find? (·.1 == name) = none :=
    List.find?_eq_none.mpr fun e he => by simpa using h e he
  unfold entry? entries
  simp [List.find?_append, hnone]

/-- An entry that is had by its name is among the entries. -/
theorem mem_entries {es : List (Text × Node)} {name : Text} {n : Node}
    (h : Node.entry? (directory es) name = some n) : (name, n) ∈ es := by
  obtain ⟨e, he, rfl⟩ := Option.map_eq_some_iff.mp h
  have hname : e.1 = name := by simpa using List.find?_some he
  rw [← hname]
  exact List.mem_of_find?_eq_some he

/-- The entry with another name does not depend on the one with the name. -/
theorem entry?_other (before after : List (Text × Node)) {name other : Text} (n : Node)
    (h : name ≠ other) : Node.entry? (directory (before ++ (name, n) :: after)) other =
      Node.entry? (directory (before ++ after)) other := by
  unfold entry? entries
  rw [List.find?_append, List.find?_append, List.find?_cons_of_neg (by simpa using h)]

/-- A file some names down, with the directories on the way and nothing else. -/
def chain (content : List UInt8) : List Text → Node
  | [] => .file content
  | name :: r => .directory [(name, chain content r)]

/-- A tree is another one with a file that is new at a place. -/
inductive Gains (content : List UInt8) : List Text → Node → Node → Prop where
  /-- The name is new in a directory, and what is below it is made. -/
  | fresh {name : Text} {r : List Text} {before after : List (Text × Node)}
    (h : ∀ e ∈ before ++ after, e.1 ≠ name) :
    Gains content (name :: r) (.directory (before ++ after))
      (.directory (before ++ (name, chain content r) :: after))
  /-- The name is that of a directory, which gains the file. -/
  | inside {name : Text} {r : List Text} {before after : List (Text × Node)} {m m' : Node}
    (h : ∀ e ∈ before, e.1 ≠ name) (hm : Gains content r m m') :
    Gains content (name :: r) (.directory (before ++ (name, m) :: after))
      (.directory (before ++ (name, m') :: after))

/-- A tree is another one, or it is that one with a file that is new somewhere. -/
def Grown (content : List UInt8) (m m' : Node) : Prop := m' = m ∨ ∃ place, Gains content place m m'

variable {content : List UInt8}

/-- In a chain there is no link. -/
theorem at?_chain_ne_link (place q : List Text) (target : Text) :
    (chain content place).at? q ≠ some (.link target) := by
  induction place generalizing q with
  | nil =>
    cases q with
    | nil => simp [chain, at?]
    | cons name r => simp [chain, at?, entry?, entries]
  | cons name r ih =>
    cases q with
    | nil => simp [chain, at?]
    | cons x q =>
      intro h
      rw [chain, at?, Option.bind_eq_some_iff] at h
      obtain ⟨n, hn, h⟩ := h
      have hmem := List.mem_singleton.mp (mem_entries hn)
      rw [(Prod.mk.inj hmem).2] at h
      exact ih q h

/-- A tree that gains a file is a directory, and stays one. -/
theorem Gains.exists_directory {place : List Text} {m m' : Node} (h : Gains content place m m') :
    (∃ es, m = .directory es) ∧ ∃ es, m' = .directory es := by
  cases h with
  | fresh _ => exact ⟨⟨_, rfl⟩, _, rfl⟩
  | inside _ _ => exact ⟨⟨_, rfl⟩, _, rfl⟩

/-- What is a name down stays there, and may gain the file. -/
theorem Gains.entry? {place : List Text} {m m' n : Node} {name : Text}
    (h : Gains content place m m') (hn : m.entry? name = some n) :
    ∃ n', m'.entry? name = some n' ∧ Grown content n n' := by
  cases h with
  | @fresh x r before after hx =>
    have hne : x ≠ name := fun heq => hx _ (mem_entries hn) heq.symm
    rw [entry?_other before after _ hne]
    exact ⟨n, hn, .inl rfl⟩
  | @inside x r before after k k' hx hk =>
    by_cases hne : x = name
    · subst hne
      rw [entry?_self k hx, Option.some.injEq] at hn
      subst hn
      exact ⟨k', entry?_self k' hx, .inr ⟨r, hk⟩⟩
    · rw [entry?_other before after _ hne] at hn ⊢
      exact ⟨n, hn, .inl rfl⟩

/-- What is a name down in a tree that gained a file was there and may have gained the file, or is
new. -/
theorem Gains.of_entry? {place : List Text} {m m' n' : Node} {name : Text}
    (h : Gains content place m m') (hn : m'.entry? name = some n') :
    (∃ n, m.entry? name = some n ∧ Grown content n n') ∨ ∃ r, n' = chain content r := by
  -- The file is new in this directory, together with those on its way, or it was gained further
  -- down.
  cases h with
  | @fresh x r before after hx =>
    by_cases hne : x = name
    · subst hne
      rw [entry?_self _ fun e he => hx e (List.mem_append_left after he), Option.some.injEq] at hn
      exact .inr ⟨r, hn.symm⟩
    · rw [entry?_other before after _ hne] at hn
      exact .inl ⟨n', hn, .inl rfl⟩
  | @inside x r before after k k' hx hk =>
    left
    by_cases hne : x = name
    · subst hne
      rw [entry?_self k' hx, Option.some.injEq] at hn
      subst hn
      exact ⟨k, entry?_self k hx, .inr ⟨r, hk⟩⟩
    · rw [entry?_other before after _ hne] at hn ⊢
      exact ⟨n', hn, .inl rfl⟩

namespace Grown

variable {m m' n : Node}

/-- A tree in which nothing is added has grown. -/
theorem refl (m : Node) : Grown content m m := .inl rfl

/-- A file stays as it is. -/
theorem eq_file {bytes : List UInt8} (h : Grown content (.file bytes) m') : m' = .file bytes := by
  rcases h with h | ⟨place, h⟩
  · exact h
  · cases h

/-- A link stays as it is. -/
theorem eq_link {target : Text} (h : Grown content (.link target) m') : m' = .link target := by
  rcases h with h | ⟨place, h⟩
  · exact h
  · cases h

/-- A directory stays one. -/
theorem exists_directory {es : List (Text × Node)} (h : Grown content (.directory es) m') :
    ∃ es', m' = .directory es' := by
  rcases h with rfl | ⟨place, h⟩
  · exact ⟨es, rfl⟩
  · exact h.exists_directory.2

/-- What is a name down stays there, and may gain the file. -/
theorem entry? {name : Text} (h : Grown content m m') (hn : m.entry? name = some n) :
    ∃ n', m'.entry? name = some n' ∧ Grown content n n' := by
  rcases h with rfl | ⟨place, h⟩
  · exact ⟨n, hn, refl n⟩
  · exact h.entry? hn

/-- What is some names down stays there, and may gain the file. -/
theorem at? {q : List Text} (h : Grown content m m') (hn : m.at? q = some n) :
    ∃ n', m'.at? q = some n' ∧ Grown content n n' := by
  induction q generalizing m m' with
  | nil =>
    cases hn
    exact ⟨m', rfl, h⟩
  | cons name r ih =>
    rw [Node.at?, Option.bind_eq_some_iff] at hn
    obtain ⟨k, hk, hn⟩ := hn
    obtain ⟨k', hk', h⟩ := h.entry? hk
    rw [Node.at?, hk']
    exact ih h hn

/-- The links are where they were. -/
theorem at?_link_iff (h : Grown content m m') {q : List Text} {target : Text} :
    m'.at? q = some (.link target) ↔ m.at? q = some (.link target) := by
  constructor
  · intro hl
    -- What is new on the way down is directories and one file, so a link that is met was there.
    induction q generalizing m m' with
    | nil =>
      cases hl
      rcases h with h | ⟨place, h⟩
      · rw [h]
        rfl
      · cases h
    | cons name r ih =>
      rcases h with rfl | ⟨place, h⟩
      · exact hl
      · rw [Node.at?, Option.bind_eq_some_iff] at hl
        obtain ⟨k', hk', hl⟩ := hl
        rcases h.of_entry? hk' with ⟨k, hk, hg⟩ | ⟨s, rfl⟩
        · rw [Node.at?, hk]
          exact ih hg hl
        · exact absurd hl (at?_chain_ne_link s r target)
  · intro hl
    obtain ⟨n', hn', hg⟩ := h.at? hl
    rw [hn', hg.eq_link]

end Grown

end Node

end SurfaceAudit
