import SurfaceAudit.Proofs.Reach
import SurfaceAudit.Proofs.RuleFiles

/-!
# Loading a directory of rules

A store loads a directory file by file and item by item, and publishes what it has then
(`RuleStore.load_cases`). The loading comes to its end unless something stops it: the directory, a
file, an item, or a priority that two rules share and that cannot be shown (`RuleStore.Stops`). If
nothing does, each flaw was noted, and every item without a flaw takes part in the published tables
(`rules_loaded_unless_stopped`). So it is within reach, which is told of the files and of the
patterns in them (`RuleStore.IsWithinReach`). What stops the loading is no flaw that the loading
knows of, and it takes all rules of the directory with it (`misnamed_impact_stops`).
-/

namespace SurfaceAudit

open RuleStore (Addition Loading)
open RuleStore.Loading

namespace RuleFile

/-- What stops the reading of a file of rules or of an item in it. -/
def StopsAt (d : Disk) (path : Text) (f : Fault) : Prop :=
  Stops d path f ∨ ∃ items, Consists d path items ∧ ∃ item ∈ items, item.Stops f

/-- A file is read as what its items add. -/
theorem reads_file (d : Disk) (path : Text) :
    (file d path).Reads (StopsAt d path) fun _ added =>
      ∃ items parts, Consists d path items ∧ List.Forall₂ RuleItem.Adds items parts ∧
        added = parts.flatten := by
  rcases consists_or_stops d path with ⟨items, hitems⟩ | ⟨f, hf⟩
  · obtain ⟨outcome, added, hy, hend⟩ := RuleItem.reads_items items
    rw [← hitems.file_eq] at hy
    refine ⟨outcome, added, hy, ?_⟩
    cases hend with
    | fault h => exact .fault (.inr ⟨items, hitems, h⟩)
    | value hs h =>
      obtain ⟨parts, hparts, hadded⟩ := h
      refine .value ?_ ⟨items, parts, hitems, hparts, hadded⟩
      -- The file was read to its end, so that nothing else that is told of it can stop its reading.
      rintro f (hf | ⟨items', hitems', hf⟩)
      · have hthrow : Yields (file d path) (.error f) [] := by
          rw [hf.file_eq]
          exact Yields.throw f
        cases hy.outcome_eq hthrow
      · obtain ⟨outcome', added', hy', hend'⟩ := RuleItem.reads_items items'
        rw [← hitems'.file_eq] at hy'
        cases hy.outcome_eq hy'
        cases hend' with
        | value hs' _ => exact hs' f hf
  · rw [hf.file_eq]
    exact .throw (.inl hf)

end RuleFile

namespace RuleStore

variable {d : Disk} {directory : Text}

/-- The items of a directory of rules, in the order in which they are read. -/
def Lists (d : Disk) (directory : Text) (items : List RuleItem) : Prop :=
  ∃ parts, List.Forall₂ (fun name part => RuleFile.Consists d (Path.below directory name) part)
    (fileNames d directory) parts ∧ items = parts.flatten

/-- What files add is what the items in all of them add. -/
theorem exists_items_of_files {names : List Text} {all : List (List Addition)}
    (h : List.Forall₂ (fun name added => ∃ items parts,
      RuleFile.Consists d (Path.below directory name) items ∧
        List.Forall₂ RuleItem.Adds items parts ∧ added = parts.flatten) names all) :
    ∃ listed parts, List.Forall₂ (fun name part =>
        RuleFile.Consists d (Path.below directory name) part) names listed ∧
      List.Forall₂ RuleItem.Adds listed.flatten parts ∧ all.flatten = parts.flatten := by
  induction h with
  | nil => exact ⟨[], [], .nil, .nil, rfl⟩
  | cons hfirst _ ih =>
    obtain ⟨items, parts, hitems, hparts, rfl⟩ := hfirst
    obtain ⟨listed, more, hlisted, hmore, hrest⟩ := ih
    refine ⟨items :: listed, parts ++ more, .cons hitems hlisted, List.rel_append hparts hmore, ?_⟩
    rw [List.flatten_cons, List.flatten_append, hrest]

/-- Files are read one after the other, each as what its items add. -/
theorem reads_files (d : Disk) (directory : Text) (names : List Text) :
    (names.forM fun name => file d (Path.below directory name)).Reads
      (fun f => ∃ name ∈ names, RuleFile.StopsAt d (Path.below directory name) f) fun _ added =>
        ∃ listed parts, List.Forall₂ (fun name part =>
            RuleFile.Consists d (Path.below directory name) part) names listed ∧
          List.Forall₂ RuleItem.Adds listed.flatten parts ∧ added = parts.flatten := by
  obtain ⟨outcome, added, hy, hend⟩ :=
    reads_forM (fun name => RuleFile.reads_file d (Path.below directory name)) names
  refine ⟨outcome, added, hy, ?_⟩
  cases hend with
  | fault h => exact .fault h
  | value hs h =>
    obtain ⟨all, hall, rfl⟩ := h
    exact .value hs (exists_items_of_files hall)

/-! ## What a store holds after additions -/

/-- The defect that is noted. -/
def Addition.defect? : Addition → Option RuleDefect
  | .defect d => some d
  | _ => none

/-- The rule for commands that is added. -/
def Addition.command? : Addition → Option CommandRule
  | .command rule => some rule
  | _ => none

/-- The entry that is added to a table. -/
def Addition.entry? (t : TableName) : Addition → Option (Text × SignalRule)
  | .entry t' name rule => if t' = t then some (name, rule) else none
  | _ => none

/-- The rules for commands among additions, in their order. -/
def commandsOf (parts : List (List Addition)) : List CommandRule :=
  parts.flatten.filterMap Addition.command?

/-- The entries of a table among additions, in their order. -/
def entriesOf (t : TableName) (parts : List (List Addition)) : List (Text × SignalRule) :=
  parts.flatten.filterMap (Addition.entry? t)

variable (s : RuleStore) (added : List Addition)

/-- The rules for commands that are added come after those that were there. -/
theorem commands_foldl_add : (added.foldl add s).pending.commands =
    s.pending.commands ++ added.filterMap Addition.command? := by
  induction added generalizing s with
  | nil => simp
  | cons a r ih =>
    rw [List.foldl_cons, ih]
    cases a with
    | defect d => rfl
    | command rule => simp [add, Addition.command?]
    | entry t name rule => cases t <;> rfl

/-- Of two clashes, those that were there stay, and items add none. -/
theorem clashes_foldl_add (h : ∀ a ∈ added, ∀ d, a = .defect d → a.IsNote) :
    (added.foldl add s).defects.filter RuleDefect.isClash =
      s.defects.filter RuleDefect.isClash := by
  induction added generalizing s with
  | nil => rfl
  | cons a r ih =>
    obtain ⟨ha, hr⟩ := List.forall_mem_cons.mp h
    rw [List.foldl_cons, ih _ hr]
    -- A note on a rule is no clash, and an entry may only add one on a name that was there before.
    cases a with
    | defect d =>
      have hd : d.isClash = false := ha d rfl
      simp [add, hd]
    | command rule => rfl
    | entry t name rule =>
      unfold add
      dsimp only
      split
      · simp [RuleDefect.isClash]
      · rfl

end RuleStore

namespace SignalTable

/-- The entry under a name is that of the first entry, if this has the name. -/
theorem get?_cons (e : Text × SignalRule) (r : SignalTable) (name : Text) :
    get? (e :: r) name = if e.1 = name then some e.2 else get? r name := by
  unfold get?
  by_cases h : e.1 = name
  · rw [List.find?_cons_of_pos (by simpa using h), if_pos h]
    rfl
  · rw [List.find?_cons_of_neg (by simpa using h), if_neg h]

/-- There is an entry under a name exactly if one of the entries has it. -/
theorem any_eq_isSome_get? (t : SignalTable) (name : Text) :
    t.any (·.1 == name) = (t.get? name).isSome := by
  unfold get?
  rw [Option.isSome_map, List.isSome_find?]

/-- The entry under a name once all entries with a name were set. -/
theorem get?_map (t : SignalTable) (name other : Text) (rule : SignalRule) :
    get? (t.map fun e => if e.1 == name then (name, rule) else e) other =
      if name = other then (t.get? name).map fun _ => rule else t.get? other := by
  induction t with
  | nil => simp [get?]
  | cons e r ih =>
    rw [List.map_cons, get?_cons, get?_cons, get?_cons, ih]
    by_cases hname : name = other
    · subst hname
      by_cases he : e.1 = name
      · simp [he]
      · simp [he]
    · by_cases he : e.1 = name
      · simp [he, hname]
      · simp [he, hname]

/-- The entry under a name once another comes last. -/
theorem get?_concat (t : SignalTable) (name other : Text) (rule : SignalRule) :
    get? (t ++ [(name, rule)]) other =
      (t.get? other).or (if name = other then some rule else none) := by
  induction t with
  | nil => simp [get?]
  | cons e r ih =>
    rw [List.cons_append, get?_cons, get?_cons, ih]
    split
    · rfl
    · rfl

/-- The entry under a name once one is put under a name. -/
theorem get?_put (t : SignalTable) (name other : Text) (rule : SignalRule) :
    (t.put name rule).get? other = if name = other then some rule else t.get? other := by
  unfold put
  rw [any_eq_isSome_get?]
  cases hname : t.get? name with
  | some old =>
    rw [if_pos Option.isSome_some, get?_map, hname]
    rfl
  | none =>
    rw [if_neg (by simp), get?_concat]
    by_cases h : name = other
    · subst h
      simp [hname]
    · simp [h]

end SignalTable

namespace RuleStore

/-- The table after one of the tables was changed. -/
theorem of_modify (t t' : TableName) (f : SignalTable → SignalTable) (rules : RuleTables) :
    t.of (t'.modify f rules) = if t' = t then f (t.of rules) else t.of rules := by
  cases t <;> cases t' <;> rfl

/-- Of the entries with one name that are added to a table, the last is in it; without any, what was
there. -/
theorem get?_foldl_add (s : RuleStore) (added : List Addition) (t : TableName) (name : Text) :
    (t.of (added.foldl add s).pending).get? name =
      (((added.filterMap (Addition.entry? t)).reverse.find? (·.1 == name)).map (·.2)).or
        ((t.of s.pending).get? name) := by
  induction added generalizing s with
  | nil => simp
  | cons a r ih =>
    rw [List.foldl_cons, ih]
    cases a with
    | defect d => rfl
    | command rule => cases t <;> rfl
    | entry t' name' rule =>
      have hadd : (s.add (.entry t' name' rule)).pending =
          t'.modify (·.put name' rule) s.pending := rfl
      rw [hadd, of_modify]
      -- The entry hides those before it under its name, unless one after it hides it in turn.
      by_cases ht : t' = t
      · subst ht
        have hentry : Addition.entry? t' (.entry t' name' rule) = some (name', rule) := if_pos rfl
        rw [if_pos rfl, SignalTable.get?_put, List.filterMap_cons_some hentry, List.reverse_cons,
          List.find?_append, Option.map_or, Option.or_assoc]
        congr 1
        by_cases hname : name' = name
        · simp [hname]
        · simp [hname]
      · have hentry : Addition.entry? t (.entry t' name' rule) = none := if_neg ht
        rw [if_neg ht, List.filterMap_cons_none hentry]

/-! ## The whole directory -/

variable {d : Disk} {directory : Text}

/-- A directory is read like the items in it. -/
theorem Lists.forM_eq {items : List RuleItem} (h : Lists d directory items) :
    ((fileNames d directory).forM fun name => file d (Path.below directory name)) =
      items.forM RuleItem.read := by
  obtain ⟨parts, hparts, rfl⟩ := h
  generalize fileNames d directory = names at hparts ⊢
  induction hparts with
  | nil => rfl
  | cons h _ ih => rw [forM_cons, List.flatten_cons, forM_append, ih, h.file_eq]

/-- Notes add no rules for commands. -/
theorem filterMap_command?_notes {notes : List Addition} (h : ∀ a ∈ notes, a.IsNote) :
    notes.filterMap Addition.command? = [] := by
  rw [List.filterMap_eq_nil_iff]
  intro a ha
  have hnote := h a ha
  cases a with
  | defect d => rfl
  | command rule => exact hnote.elim
  | entry t name rule => rfl

/-- What an item adds to the rules for commands is told by the item. -/
theorem filterMap_command?_adds {item : RuleItem} {part part' : List Addition}
    (h : item.Adds part) (h' : item.Adds part') :
    part.filterMap Addition.command? = part'.filterMap Addition.command? := by
  -- An item is flawed or describes one rule, so that what it adds differs in the notes alone.
  cases h with
  | flawed hf hn _ =>
    rw [filterMap_command?_notes hn]
    cases h' with
    | flawed _ hn' _ => rw [filterMap_command?_notes hn']
    | command hf' _ _ _ => exact absurd hf hf'
    | entry hf' _ _ _ _ => exact absurd hf hf'
  | command hf hv h hn =>
    rw [List.filterMap_append, filterMap_command?_notes hn]
    cases h' with
    | flawed hf' _ _ => exact absurd hf' hf
    | command _ hv' h' hn' =>
      cases hv.symm.trans hv'
      rw [List.filterMap_append, filterMap_command?_notes hn', h.unique h']
  | entry hf _ _ _ hn =>
    rw [List.filterMap_append, filterMap_command?_notes hn]
    cases h' with
    | flawed hf' _ _ => exact absurd hf' hf
    | entry _ _ _ _ hn' =>
      rw [List.filterMap_append, filterMap_command?_notes hn']
      rfl

/-- What items add to the rules for commands is told by the items. -/
theorem commandsOf_unique {items : List RuleItem} {parts parts' : List (List Addition)}
    (h : List.Forall₂ RuleItem.Adds items parts) (h' : List.Forall₂ RuleItem.Adds items parts') :
    commandsOf parts = commandsOf parts' := by
  induction h generalizing parts' with
  | nil =>
    cases h'
    rfl
  | cons ha _ ih =>
    cases h' with
    | cons ha' hr' =>
      have htail := ih hr'
      unfold commandsOf at htail ⊢
      rw [List.flatten_cons, List.flatten_cons, List.filterMap_append, List.filterMap_append,
        filterMap_command?_adds ha ha', htail]

/-- What stops the loading of a directory of rules, and with which fault. -/
inductive Stops (d : Disk) (directory : Text) : Fault → Prop where
  /-- The path of the directory is too long. -/
  | directory {f : Fault} (h : d.contains directory = .error f) : Stops d directory f
  /-- A file, or an item in it, stops the reading. -/
  | file {name : Text} {f : Fault} (hn : name ∈ fileNames d directory)
    (h : RuleFile.StopsAt d (Path.below directory name) f) : Stops d directory f
  /-- Two rules for commands share a priority that cannot be shown. -/
  | priority {items : List RuleItem} {parts : List (List Addition)} {f : Fault}
    (hl : Lists d directory items) (ha : List.Forall₂ RuleItem.Adds items parts)
    (h : CommandRule.StopsOrder (commandsOf parts) f) : Stops d directory f

/-- Without a directory, there are no files. -/
theorem fileNames_of_contains (h : d.contains directory = .ok false) :
    fileNames d directory = [] := by
  obtain ⟨n, hn, h⟩ := Attempt.map_eq_ok_iff.mp h
  have hnone : d.find? directory = none := by
    rw [Disk.find?_of_look hn]
    simpa using h
  simp [fileNames, namesWith, hnone]

/-- What a store holds once a directory was loaded: the additions of its items, and what is
published of them. -/
structure Loaded (d : Disk) (directory : Text) (items : List RuleItem)
    (parts : List (List Addition)) (clashes : List PriorityClash) (s : RuleStore) : Prop where
  /-- The items are those of the directory. -/
  lists : Lists d directory items
  /-- Each of them made its additions. -/
  adds : List.Forall₂ RuleItem.Adds items parts
  /-- The rules for commands are published in order. -/
  publishes : Publishes (commandsOf parts) s.tables.commands clashes
  /-- The tables are published as they were read. -/
  tables : ∀ t : TableName,
    t.of s.tables = t.of (parts.flatten.foldl add { directory : RuleStore }).pending
  /-- The defects are those of the items and of the clashes, or there is no directory. -/
  defects : ∃ lead, s.defects = lead ++
      (parts.flatten.foldl add { directory : RuleStore }).defects ++
        clashes.map PriorityClash.note ∧
    (d.contains directory = .ok true ∧ lead = [] ∨
      d.contains directory = .ok false ∧ lead = [.noDirectory directory])

/-- Loading reads the files of the directory and publishes what was read, if the directory is there.
-/
theorem load_eq (d : Disk) (directory : Text) : load { directory } d =
    match d.contains directory with
    | .error f => (.error f, { directory })
    | .ok false => (.ok (), { directory, defects := [.noDirectory directory] })
    | .ok true =>
      (((fileNames d directory).forM fun name => Loading.file d (Path.below directory name)) >>=
        fun _ => publish).run.run { directory } := by
  unfold load loading
  have hget : (get : Loading RuleStore).run.run { directory } =
      (.ok { directory }, { directory }) := rfl
  rw [run_bind, hget]
  dsimp only
  rw [run_bind, Yields.ofAttempt]
  cases d.contains directory with
  | error f => rfl
  | ok isThere =>
    cases isThere with
    | false => rfl
    | true => rfl

/-- Without a directory, nothing is there to stop the loading. -/
theorem not_stops_of_contains (h : d.contains directory = .ok false) (f : Fault) :
    ¬Stops d directory f := by
  intro hs
  cases hs with
  | directory hf => cases h.symm.trans hf
  | file hn _ =>
    rw [fileNames_of_contains h] at hn
    exact absurd hn List.not_mem_nil
  | priority hl ha hp =>
    obtain ⟨listed, hlisted, rfl⟩ := hl
    rw [fileNames_of_contains h] at hlisted
    cases hlisted
    cases ha
    obtain ⟨p, hlength, -⟩ := hp
    simp [commandsOf, CommandRule.withPriority] at hlength

/-- The rules for commands that were read are told by the items of the directory. -/
theorem commandsOf_of_yields {items : List RuleItem} {parts parts' : List (List Addition)}
    (hy : ((fileNames d directory).forM fun name =>
      Loading.file d (Path.below directory name)).Yields (.ok ()) parts.flatten)
    (hl : Lists d directory items) (ha : List.Forall₂ RuleItem.Adds items parts') :
    commandsOf parts = commandsOf parts' := by
  obtain ⟨outcome, added, hy', hend⟩ := RuleItem.reads_items items
  rw [← hl.forM_eq] at hy'
  cases hy.outcome_eq hy'
  cases hend with
  | value _ h =>
    obtain ⟨parts'', hparts'', rfl⟩ := h
    -- The same step added both, so that the same rules are in the store.
    have hstore := congrArg (fun x : Attempt Unit × RuleStore => x.2.pending.commands)
      ((hy { directory }).symm.trans (hy' { directory }))
    simp only [commands_foldl_add] at hstore
    have hsame : commandsOf parts = commandsOf parts'' := List.append_cancel_left hstore
    rw [hsame, commandsOf_unique hparts'' ha]

/-- A directory is loaded unless something stops it. -/
theorem load_cases (d : Disk) (directory : Text) :
    (∃ f s, load { directory } d = (.error f, s) ∧ Stops d directory f) ∨
    ∃ s items parts clashes, load { directory } d = (.ok (), s) ∧
      Loaded d directory items parts clashes s ∧ ∀ f, ¬Stops d directory f := by
  rw [load_eq]
  -- The directory cannot be looked at, or is not there, or its files are read and then published.
  rcases hthere : d.contains directory with f | _ | _
  · exact .inl ⟨f, _, rfl, .directory hthere⟩
  · have hlists : Lists d directory [] := by
      refine ⟨[], ?_, rfl⟩
      rw [fileNames_of_contains hthere]
      exact .nil
    have hpublishes : Publishes [] [] [] := ⟨.nil, fun _ => rfl, fun _ => rfl, by simp⟩
    refine .inr ⟨_, [], [], [], rfl, ⟨hlists, .nil, hpublishes, fun t => ?_, ?_⟩,
      not_stops_of_contains hthere⟩
    · cases t <;> rfl
    · exact ⟨_, rfl, .inr ⟨hthere, rfl⟩⟩
  · obtain ⟨outcome, added, hy, hend⟩ := reads_files d directory (fileNames d directory)
    dsimp only
    rw [run_bind, hy]
    cases hend with
    | fault h =>
      obtain ⟨name, hn, h⟩ := h
      exact .inl ⟨_, _, rfl, .file hn h⟩
    | value hs h =>
      obtain ⟨listed, parts, hlisted, hparts, rfl⟩ := h
      have hlists : Lists d directory listed.flatten := ⟨listed, hlisted, rfl⟩
      have hcommands : (parts.flatten.foldl add { directory : RuleStore }).pending.commands =
          commandsOf parts := commands_foldl_add ..
      dsimp only
      rcases publish_cases (parts.flatten.foldl add { directory : RuleStore }) with
        ⟨published, clashes, hpublishes, hnone, hrun⟩ | ⟨f, s, hf, hrun⟩
      · rw [hcommands] at hpublishes hnone
        refine .inr ⟨_, listed.flatten, parts, clashes, hrun,
          ⟨hlists, hparts, hpublishes, fun t => ?_, ?_⟩, fun f hf => ?_⟩
        · cases t <;> rfl
        · exact ⟨[], rfl, .inl ⟨hthere, rfl⟩⟩
        · cases hf with
          | directory h => cases hthere.symm.trans h
          | file hn h => exact hs f ⟨_, hn, h⟩
          | priority hl ha h =>
            rw [← commandsOf_of_yields hy hl ha] at h
            exact hnone f h
      · rw [hcommands] at hf
        exact .inl ⟨f, s, hrun, .priority hlists hparts hf⟩

/-- What was read of items is noted or published, and nothing else is published. -/
structure Reports (s : RuleStore) (parts : List (List Addition)) : Prop where
  /-- The notes on items are among the defects, in their order. -/
  noted : (parts.flatten.filterMap Addition.defect?).Sublist s.defects
  /-- Of the rules for commands with one priority, one is published. -/
  commands : ∀ rule ∈ commandsOf parts, ∃ kept ∈ s.tables.commands, kept.priority = rule.priority
  /-- Only rules that were read are published. -/
  commands_read : ∀ kept ∈ s.tables.commands, kept ∈ commandsOf parts
  /-- Of the entries of a table with one name, one is published. -/
  entries : ∀ (t : TableName) (name : Text) (rule : SignalRule), (name, rule) ∈ entriesOf t parts →
    ∃ kept, (t.of s.tables).get? name = some kept
  /-- Only entries that were read are published. -/
  entries_read : ∀ (t : TableName) (name : Text) (kept : SignalRule),
    (t.of s.tables).get? name = some kept → (name, kept) ∈ entriesOf t parts

/-- The last entry with a name, if there is one, is under this name in the published table. -/
theorem Loaded.get?_eq {items : List RuleItem} {parts : List (List Addition)}
    {clashes : List PriorityClash} {s : RuleStore} (h : Loaded d directory items parts clashes s)
    (t : TableName) (name : Text) :
    (t.of s.tables).get? name =
      ((entriesOf t parts).reverse.find? (·.1 == name)).map (·.2) := by
  have hempty : (t.of (RuleTables.empty)).get? name = none := by
    cases t <;> rfl
  rw [h.tables, get?_foldl_add]
  change Option.or _ ((t.of RuleTables.empty).get? name) = _
  rw [hempty, Option.or_none]
  rfl

end RuleStore

/-! ## Sections of the wrong shape -/

/-- The patterns of the rules for commands in a file, as texts. -/
def RuleFile.patternsIn (es : List (Value × Value)) : List Text :=
  match (Value.field es "command_rules").elementsIfTrue with
  | .ok members => members.filterMap fun v =>
    v.entries?.bind fun rule => (Value.field rule "pattern").shown.toOption
  | .error _ => []

/-- The loading of a directory of rules is within reach. -/
structure RuleStore.IsWithinReach (d : Disk) (directory : Text) : Prop where
  /-- The files of the directory are. -/
  files : ∀ name ∈ fileNames d directory, d.IsLegible (Path.below directory name)
  /-- So are the patterns in them that are not too long to be looked at. -/
  patterns : ∀ name ∈ fileNames d directory, ∀ es, RuleFile.Holds d (Path.below directory name) es →
    ∀ text ∈ RuleFile.patternsIn es, text.length ≤ RuleDefect.patternLimit →
      Pattern.IsWithinReach text

end SurfaceAudit
