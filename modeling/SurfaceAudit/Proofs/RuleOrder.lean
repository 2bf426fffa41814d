import SurfaceAudit.Proofs.RuleLoading

/-!
# The order of the published rules

A directory of rules is read in the order of the names of its files, those with the long extension
first, and each file from its first entry to its last. The rules for commands are published in
strict order of their priorities, and of each priority the one that was read first; in a table, the
entry under a name is the one that was read last (`RuleStore.IsOrdered`). So the order of reading
does not count for rules with priorities of their own: two directories with the same rules publish
the same (`rules_published_in_order`).
-/

namespace SurfaceAudit

open RuleStore (Addition)
open CommandRule (withPriority)

namespace CommandRule

/-- If the priorities of rules differ, one rule at most has a priority. -/
theorem length_withPriority_le {rules : List CommandRule} (h : (rules.map (·.priority)).Nodup)
    (p : Int) : (withPriority rules p).length ≤ 1 := by
  have hcount := List.nodup_iff_count_le_one.mp h p
  rw [List.count, List.countP_map, List.countP_eq_length_filter] at hcount
  exact hcount

/-- The same rules in another order have the same rule of each priority, if their priorities differ.
-/
theorem withPriority_perm {rules rules' : List CommandRule} (hperm : rules.Perm rules')
    (h : (rules.map (·.priority)).Nodup) (p : Int) :
    withPriority rules p = withPriority rules' p := by
  have hsame : (withPriority rules p).Perm (withPriority rules' p) := hperm.filter _
  have hlength := length_withPriority_le h p
  rcases hrules : withPriority rules p with _ | ⟨rule, _ | ⟨other, r⟩⟩
  · rw [hrules] at hsame
    exact hsame.nil_eq
  · rw [hrules] at hsame
    exact (List.perm_singleton.mp hsame.symm).symm
  · rw [hrules] at hlength
    simp at hlength

/-- Rules in strict order of their priorities are told by which rule has which priority. -/
theorem eq_of_withPriority {rules rules' : List CommandRule}
    (h : rules.Pairwise fun a b => a.priority < b.priority)
    (h' : rules'.Pairwise fun a b => a.priority < b.priority)
    (hsame : ∀ p, withPriority rules p = withPriority rules' p) : rules = rules' := by
  have hnodup {l : List CommandRule} (hl : l.Pairwise fun a b => a.priority < b.priority) :
      l.Nodup := hl.imp fun {a b} hlt heq => absurd (heq ▸ hlt) (lt_irrefl _)
  have hmem {l : List CommandRule} (rule : CommandRule) :
      rule ∈ l ↔ rule ∈ withPriority l rule.priority := by
    simp [withPriority]
  have hperm : rules.Perm rules' := by
    refine (List.perm_ext_iff_of_nodup (hnodup h) (hnodup h')).mpr fun rule => ?_
    rw [hmem, hmem (l := rules'), hsame]
  exact hperm.eq_of_pairwise (fun a b _ _ hab hba => absurd (hab.trans hba) (lt_irrefl _)) h h'

end CommandRule

namespace RuleStore

/-- What was read of a directory is published in order, where the rules for commands that the items
of the directory describe are given in the order of reading. -/
structure IsOrdered (d : Disk) (directory : Text) (rules : List CommandRule) (s : RuleStore) : Prop
    where
  /-- The files with each of the extensions are read in the order of their names. -/
  names : ∀ extension, (namesWith d directory extension).Pairwise Text.Le
  /-- The items of the files describe the rules, and the last entry with a name is in its table. -/
  read : ∃ items parts, Lists d directory items ∧ List.Forall₂ RuleItem.Adds items parts ∧
    rules = commandsOf parts ∧ ∀ (t : TableName) (name : Text), (t.of s.tables).get? name =
      ((entriesOf t parts).reverse.find? (·.1 == name)).map (·.2)
  /-- The priorities of the published rules increase strictly. -/
  increasing : s.tables.commands.Pairwise fun a b => a.priority < b.priority
  /-- Of each priority, the rule that was read first is published. -/
  first : ∀ p, withPriority s.tables.commands p = (withPriority rules p).take 1
  /-- Of each other rule, it is noted once that it shares its priority with the published one. -/
  others : ∃ clashes : List PriorityClash,
    s.defects.filter RuleDefect.isClash = clashes.map PriorityClash.note ∧
    (∀ p, (clashes.map (·.other)).filter (fun rule => rule.priority == p) =
      (withPriority rules p).tail) ∧
    ∀ c ∈ clashes, c.first ∈ s.tables.commands ∧ c.first.priority = c.other.priority ∧
      Number.writeInt c.other.priority = .ok c.shown

/-- Items note no clashes. -/
theorem isNote_of_adds {items : List RuleItem} {parts : List (List Addition)}
    (h : List.Forall₂ RuleItem.Adds items parts) :
    ∀ a ∈ parts.flatten, ∀ d, a = .defect d → a.IsNote := by
  induction h with
  | nil => simp
  | cons hadds _ ih =>
    rw [List.flatten_cons]
    refine List.forall_mem_append.mpr ⟨?_, ih⟩
    have hnotes {notes : List Addition} (hn : ∀ a ∈ notes, a.IsNote) :
        ∀ a ∈ notes, ∀ d, a = .defect d → a.IsNote := fun a ha _ _ => hn a ha
    cases hadds with
    | flawed _ hn _ => exact hnotes hn
    | command _ _ _ hn =>
      exact List.forall_mem_append.mpr
        ⟨hnotes hn, List.forall_mem_singleton.mpr fun d h => nomatch h⟩
    | entry _ _ _ _ hn =>
      exact List.forall_mem_append.mpr
        ⟨hnotes hn, List.forall_mem_singleton.mpr fun d h => nomatch h⟩

/-- The names of files are sorted. -/
theorem pairwise_namesWith (d : Disk) (directory extension : Text) :
    (namesWith d directory extension).Pairwise Text.Le := by
  unfold namesWith
  split
  · rw [Text.sort_eq]
    exact List.pairwise_insertionSort ..
  · exact .nil

/-- A directory that was loaded is published in order. -/
theorem Loaded.isOrdered {d : Disk} {directory : Text} {items : List RuleItem}
    {parts : List (List Addition)} {clashes : List PriorityClash} {s : RuleStore}
    (h : Loaded d directory items parts clashes s) :
    IsOrdered d directory (commandsOf parts) s where
  names := pairwise_namesWith d directory
  read := ⟨items, parts, h.lists, h.adds, rfl, h.get?_eq⟩
  increasing := h.publishes.increasing
  first := h.publishes.first
  others := by
    refine ⟨clashes, ?_, h.publishes.others, h.publishes.clash⟩
    obtain ⟨lead, hdefects, hlead⟩ := h.defects
    -- The notes are those on the directory, those of the items and the clashes, and only the last
    -- are kept.
    have hnone : lead.filter RuleDefect.isClash = [] := by
      rcases hlead with ⟨-, rfl⟩ | ⟨-, rfl⟩
      · rfl
      · rfl
    have hall : (clashes.map PriorityClash.note).filter RuleDefect.isClash =
        clashes.map PriorityClash.note := by
      rw [List.filter_eq_self]
      intro d hd
      obtain ⟨c, -, rfl⟩ := List.mem_map.mp hd
      rfl
    rw [hdefects, List.filter_append, List.filter_append, hnone, hall,
      clashes_foldl_add _ _ (isNote_of_adds h.adds)]
    rfl

end RuleStore

/-- On every directory of rules that is loaded, what is published is in order. If the rules for
commands of two directories are the same up to their order, and their priorities differ, then both
publish the same rules for commands, and classify every command alike. -/
theorem rules_published_in_order {d d' : Disk} {directory directory' : Text} {s s' : RuleStore}
    (h : RuleStore.load { directory } d = (.ok (), s))
    (h' : RuleStore.load { directory := directory' } d' = (.ok (), s')) :
    ∃ rules rules', RuleStore.IsOrdered d directory rules s ∧
      RuleStore.IsOrdered d' directory' rules' s' ∧
      (rules.Perm rules' → (rules.map (·.priority)).Nodup →
        s'.tables.commands = s.tables.commands ∧
          ∀ command, s'.tables.classifyCommand command = s.tables.classifyCommand command) := by
  have hordered {d : Disk} {directory : Text} {s : RuleStore}
      (h : RuleStore.load { directory } d = (.ok (), s)) :
      ∃ rules, RuleStore.IsOrdered d directory rules s := by
    rcases RuleStore.load_cases d directory with
      ⟨f, t, hload, -⟩ | ⟨t, items, parts, clashes, hload, hloaded, -⟩
    · cases h.symm.trans hload
    · cases h.symm.trans hload
      exact ⟨_, hloaded.isOrdered⟩
  obtain ⟨rules, hrules⟩ := hordered h
  obtain ⟨rules', hrules'⟩ := hordered h'
  refine ⟨rules, rules', hrules, hrules', fun hperm hnodup => ?_⟩
  -- Rules in strict order are told by those of each priority, of which there is one at most.
  have hsame : s'.tables.commands = s.tables.commands := by
    refine CommandRule.eq_of_withPriority hrules'.increasing hrules.increasing fun p => ?_
    rw [hrules'.first, hrules.first, CommandRule.withPriority_perm hperm hnodup]
  refine ⟨hsame, fun command => ?_⟩
  unfold RuleTables.classifyCommand
  rw [hsame]

/-- Directories of rules: in `/split`, the files with the short extension are first by name, and
have the rule of the lower priority and another of the higher one; in `/whole`, one file has the
rules the other way round. -/
def twice : Disk where
  root := .directory [("split", .directory [
      ("a.yml", .file "command_rules:
- \x7bpriority: 2, signal: late, pattern: z, impact: all-ok\x7d
".toUTF8.toList),
      ("b.yml", .file "command_rules:
- \x7bpriority: 1, signal: x, pattern: x, impact: all-ok\x7d
".toUTF8.toList),
      ("c.yml", .file "binaries: \x7bnode: \x7bsignal: second, impact: all-ok\x7d\x7d
".toUTF8.toList),
      ("d.yaml", .file "command_rules:
- \x7bpriority: 2, signal: y, pattern: y, impact: all-ok\x7d
".toUTF8.toList),
      ("e.yaml", .file "binaries: \x7bnode: \x7bsignal: first, impact: all-ok\x7d\x7d
".toUTF8.toList)]),
    ("whole", .directory [
      ("c.yaml", .file "command_rules:
- \x7bpriority: 2, signal: y, pattern: y, impact: all-ok\x7d
- \x7bpriority: 1, signal: x, pattern: x, impact: all-ok\x7d
".toUTF8.toList)])]
  current := []

/-- The first directory publishes, of two rules with one priority, the one in the file that is read
first, and of two entries with one name the last. -/
theorem split_published :
    (RuleStore.load { directory := "/split" } twice).1 = .ok () ∧
      let s := (RuleStore.load { directory := "/split" } twice).2
      s.tables.commands.map (·.signal) = (["x", "y"] : List Text) ∧
        s.tables.binaries.get? "node" = some ⟨"second", .allOk⟩ := by
  decide +kernel

/-- The second directory publishes the same rules for commands. -/
theorem whole_published :
    (RuleStore.load { directory := "/whole" } twice).1 = .ok () ∧
      (RuleStore.load { directory := "/whole" } twice).2.tables.commands.map (·.signal) =
        (["x", "y"] : List Text) := by
  decide +kernel

/-- Both directories publish what was read in order. -/
theorem rules_published_in_order_twice :
    ∃ s s' rules rules', RuleStore.load { directory := "/split" } twice = (.ok (), s) ∧
      RuleStore.load { directory := "/whole" } twice = (.ok (), s') ∧
      RuleStore.IsOrdered twice "/split" rules s ∧ RuleStore.IsOrdered twice "/whole" rules' s' ∧
      s.tables.commands.map (·.signal) = (["x", "y"] : List Text) ∧
      s'.tables.commands.map (·.signal) = (["x", "y"] : List Text) ∧
      s.tables.binaries.get? "node" = some ⟨"second", .allOk⟩ := by
  obtain ⟨hsplit, hcommands, hnode⟩ := split_published
  obtain ⟨hwhole, hcommands'⟩ := whole_published
  generalize hs : RuleStore.load { directory := "/split" } twice = loaded at *
  generalize hs' : RuleStore.load { directory := "/whole" } twice = loaded' at *
  obtain ⟨_, s⟩ := loaded
  obtain ⟨_, s'⟩ := loaded'
  cases hsplit
  cases hwhole
  obtain ⟨rules, rules', hrules, hrules', -⟩ := rules_published_in_order hs hs'
  exact ⟨s, s', rules, rules', rfl, rfl, hrules, hrules', hcommands, hcommands', hnode⟩

end SurfaceAudit
