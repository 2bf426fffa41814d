import SurfaceAudit.Proofs.Priorities
import SurfaceAudit.Proofs.Reading
import SurfaceAudit.Proofs.Walk
import SurfaceAudit.Proofs.YamlValues

/-!
# What is read of a directory of rules

The files of a directory consist of items, each of which is read by itself: a file or a section of
no use, a member of the rules for commands, an entry of a table (`RuleFile.Consists`,
`RuleFile.Consists.file_eq`). An item adds notes if it is flawed and the rule that it describes if
it is not (`RuleItem.Adds`), whatever was read before. So the loading of a directory comes to an end
unless something in it stops the reading (`RuleStore.Stops`), and then every flaw was noted and
every other item has its part in the published tables (`rules_loaded_unless_stopped`).
-/

namespace SurfaceAudit

/-- An item of a file of rules, which is read by itself. -/
inductive RuleItem where
  /-- A file or a section is of no use, and has a defect. -/
  | useless (d : RuleDefect) (hd : d.isClash = false)
  /-- A member of the rules for commands. -/
  | command (path : Text) (v : Value)
  /-- An entry of a table. -/
  | entry (t : TableName) (key v : Value)

open RuleStore (Addition Loading)
open RuleStore.Loading

namespace RuleStore.Loading

/-- Steps for the members of a list are made one after the other. -/
theorem forM_cons {γ : Type} (f : γ → Loading Unit) (x : γ) (r : List γ) :
    (x :: r).forM f = f x >>= fun _ => r.forM f := rfl

/-- Steps for the members of two lists are made for those of the first and then of the second. -/
theorem forM_append {γ : Type} (f : γ → Loading Unit) (xs ys : List γ) :
    (xs ++ ys).forM f = xs.forM f >>= fun _ => ys.forM f := by
  induction xs with
  | nil => rfl
  | cons x r ih => rw [List.cons_append, forM_cons, ih, forM_cons, bind_assoc]

/-- Steps for the members of a list add one after the other what is right for each, and a fault of
any of them stops the whole. -/
theorem reads_forM {γ : Type} {step : γ → Loading Unit} {stops : γ → Fault → Prop}
    {right : γ → List Addition → Prop}
    (h : ∀ x, (step x).Reads (stops x) fun _ added => right x added) (xs : List γ) :
    (xs.forM step).Reads (fun f => ∃ x ∈ xs, stops x f) fun _ added =>
      ∃ parts, List.Forall₂ right xs parts ∧ added = parts.flatten := by
  induction xs with
  | nil => exact .pure (by simp) ⟨[], .nil, rfl⟩
  | cons x r ih =>
    rw [forM_cons]
    refine (h x).bind (fun f hf => ⟨x, List.mem_cons_self, hf⟩) fun _ first hstops hfirst => ?_
    obtain ⟨outcome, added, hy, hend⟩ := ih
    refine ⟨outcome, added, hy, ?_⟩
    -- The first step has gone well, so a fault is one of the others.
    cases hend with
    | fault hf =>
      obtain ⟨y, hy, hf⟩ := hf
      exact .fault ⟨y, List.mem_cons_of_mem _ hy, hf⟩
    | value hs hr =>
      obtain ⟨parts, hparts, rfl⟩ := hr
      refine .value (fun f => ?_) ⟨first :: parts, .cons hfirst hparts, rfl⟩
      rw [List.exists_mem_cons_iff]
      exact not_or.mpr ⟨hstops f, hs f⟩

/-- A step for the only member of a list is all. -/
theorem forM_singleton {γ : Type} (f : γ → Loading Unit) (x : γ) : [x].forM f = f x :=
  bind_pure (f x)

end RuleStore.Loading

namespace RuleItem

/-- Reads an item. -/
def read : RuleItem → Loading Unit
  | .useless d _ => note d
  | .command path v => do
    match ← commandRule? path v with
    | some rule =>
      modify fun s => { s with pending.commands := s.pending.commands ++ [rule] }
    | none => pure ()
  | .entry t key v => do
    let name ← ofAttempt key.shown
    match ← signalRule? t name v with
    | some rule =>
      let store ← get
      if ((t.of store.pending).get? name).isSome then note (.duplicate name t.name)
      modify fun s => { s with pending := t.modify (·.put name rule) s.pending }
    | none => pure ()

/-- An item is flawed. -/
def IsFlawed : RuleItem → Prop
  | .useless _ _ => True
  | .command _ v => CommandRule.IsFlawed v
  | .entry t _ v => SignalRule.IsFlawed t v

/-- To read something of no use is to note its defect. -/
theorem forM_useless (d : RuleDefect) (hd : d.isClash = false) :
    [RuleItem.useless d hd].forM read = note d := forM_singleton ..

/-- What stops the reading of an item, and with which fault. -/
def Stops (item : RuleItem) (f : Fault) : Prop :=
  match item with
  | .useless _ _ => False
  | .command _ v => CommandRule.StopsValue v f
  | .entry t key v => key.shown = .error f ∨ SignalRule.Stops t v f

/-- What an item adds to a store: some notes if it is flawed, else the rule that it describes, maybe
after notes on flags that there are not. -/
inductive Adds : RuleItem → List Addition → Prop where
  /-- The item is flawed. -/
  | flawed {item : RuleItem} {notes : List Addition} (h : item.IsFlawed)
    (hn : ∀ a ∈ notes, a.IsNote) (hne : notes ≠ []) : Adds item notes
  /-- The item describes a rule for commands. -/
  | command {path : Text} {v : Value} {es : List (Value × Value)} {rule : CommandRule}
    {notes : List Addition} (hf : ¬CommandRule.IsFlawed v) (hv : v.entries? = some es)
    (h : rule.IsDescribedBy es) (hn : ∀ a ∈ notes, a.IsNote) :
    Adds (.command path v) (notes ++ [.command rule])
  /-- The item describes an entry of a table. -/
  | entry {t : TableName} {key v : Value} {es : List (Value × Value)} {name : Text}
    {rule : SignalRule} {notes : List Addition} (hf : ¬SignalRule.IsFlawed t v)
    (hk : key.shown = .ok name) (hv : v.entries? = some es) (h : rule.IsDescribedBy t name es)
    (hn : ∀ a ∈ notes, a.IsNote) : Adds (.entry t key v) (notes ++ [.entry t name rule])

end RuleItem

/-- What describes a rule for commands has no flaw. -/
theorem CommandRule.IsDescribedBy.not_isFlawed {v : Value} {es : List (Value × Value)}
    {rule : CommandRule} (hv : v.entries? = some es) (h : rule.IsDescribedBy es) :
    ¬CommandRule.IsFlawed v := by
  have hfield {name : Text} {x : Value} (hx : Value.lookup es name = some x) :
      Value.field es name = x := by
    rw [Value.field, hx, Option.getD_some]
  obtain ⟨signal, hsignal, -⟩ := h.signal
  obtain ⟨pattern, hpattern, hshown⟩ := h.pattern
  obtain ⟨names, hnames, hparse⟩ := h.expr
  intro hf
  cases hf with
  | shape h => cases hv.symm.trans h
  | @field es' name hes hn hmissing =>
    cases hv.symm.trans hes
    -- A field that is missing counts as null, which is neither a priority nor an impact.
    have hnull := congrArg (fun o => Option.getD o Value.null) hmissing
    simp only [requiredFields, List.mem_cons, List.not_mem_nil, or_false] at hn
    rcases hn with rfl | rfl | rfl | rfl
    · cases h.priority.symm.trans hnull
    · cases hsignal.symm.trans hmissing
    · cases hpattern.symm.trans hmissing
    · cases h.impact.symm.trans hnull
  | priority hes hp =>
    cases hv.symm.trans hes
    exact hp _ h.priority
  | impact hes hi =>
    cases hv.symm.trans hes
    exact hi ⟨_, h.impact⟩
  | length hes ht hl =>
    cases hv.symm.trans hes
    cases hshown.symm.trans (hfield hpattern ▸ ht)
    exact absurd h.length (Nat.not_le.mpr hl)
  | pattern hes ht hn hp =>
    cases hv.symm.trans hes
    cases hshown.symm.trans (hfield hpattern ▸ ht)
    cases hnames.symm.trans hn
    cases hparse.symm.trans hp

/-- What describes an entry of a table has no flaw. -/
theorem SignalRule.IsDescribedBy.not_isFlawed {t : TableName} {name : Text} {v : Value}
    {es : List (Value × Value)} {rule : SignalRule} (hv : v.entries? = some es)
    (h : rule.IsDescribedBy t name es) : ¬SignalRule.IsFlawed t v := by
  intro hf
  cases hf with
  | shape h => cases hv.symm.trans h
  | impact hes hi =>
    cases hv.symm.trans hes
    exact hi ⟨_, h.impact⟩
  | signal hes hfield hmissing =>
    cases hv.symm.trans hes
    have hsignal := h.signal
    rw [hfield] at hsignal
    obtain ⟨x, hx, -⟩ := hsignal
    cases hmissing.symm.trans hx

namespace RuleItem

/-- A rule for commands that was read comes after the others. -/
theorem yields_push (rule : CommandRule) :
    (modify fun s : RuleStore => { s with
      pending.commands := s.pending.commands ++ [rule] } : Loading Unit).Yields (.ok ())
      [.command rule] := fun _ => rfl

/-- An entry that was read takes the place of one with its name, which is noted. -/
theorem yields_put (t : TableName) (name : Text) (rule : SignalRule) :
    (do
      let store ← get
      if ((t.of store.pending).get? name).isSome then note (.duplicate name t.name)
      modify fun s => { s with
        pending := t.modify (·.put name rule) s.pending } : Loading Unit).Yields (.ok ())
      [.entry t name rule] := by
  intro s
  have hget : (get : Loading RuleStore).run.run s = (.ok s, s) := rfl
  rw [run_bind, hget]
  dsimp only [List.foldl_cons, List.foldl_nil, RuleStore.add]
  split
  · rfl
  · rfl

/-- An item is read as what it adds. -/
theorem reads_read (item : RuleItem) :
    item.read.Reads item.Stops fun _ added => item.Adds added := by
  cases item with
  | useless d hd =>
    have hflawed : RuleItem.Adds (.useless d hd) [.defect d] :=
      .flawed trivial (List.forall_mem_singleton.mpr hd) (by simp)
    exact ⟨_, _, Yields.note d, .value (fun _ h => h) hflawed⟩
  | command path v =>
    refine (reads_commandRule? path v).bind (fun f h => h) fun rule? notes hstops h => ?_
    cases h with
    | flawed hn hne h =>
      refine .pure hstops (.flawed h ?_ ?_)
      · simpa using hn
      · simpa using hne
    | @describes _ rule hn h =>
      obtain ⟨es, hv, h⟩ := h
      exact ⟨_, _, yields_push rule, .value hstops (.command (h.not_isFlawed hv) hv h hn)⟩
  | entry t key v =>
    refine .ofAttempt_bind (fun f h => .inl h) fun name hname => ?_
    refine (reads_signalRule? t name v).bind (fun f h => .inr h) fun rule? notes hstops h => ?_
    -- The name could be shown, so that only the value is left to stop the reading.
    have hstops (f : Fault) : ¬RuleItem.Stops (.entry t key v) f := by
      rintro (h | h)
      · cases hname.symm.trans h
      · exact hstops f h
    cases h with
    | flawed hn hne h =>
      refine .pure hstops (.flawed h ?_ ?_)
      · simpa using hn
      · simpa using hne
    | @describes _ rule hn h =>
      obtain ⟨es, hv, h⟩ := h
      exact ⟨_, _, yields_put t name rule,
        .value hstops (.entry (h.not_isFlawed hv) hname hv h hn)⟩

/-- Items are read one after the other, each as what it adds. -/
theorem reads_items (items : List RuleItem) :
    (items.forM read).Reads (fun f => ∃ item ∈ items, item.Stops f) fun _ added =>
      ∃ parts, List.Forall₂ Adds items parts ∧ added = parts.flatten :=
  reads_forM reads_read items

end RuleItem

/-! ## Files -/

namespace RuleFile

variable (d : Disk) (path : Text)

/-- A file of rules spells a text. -/
def Spells (text : Text) : Prop :=
  ∃ bytes, d.read path = .ok bytes ∧ Utf8.readPieces bytes = .ok text

/-- A file of rules is a mapping with some entries. -/
def Holds (es : List (Value × Value)) : Prop :=
  ∃ text v, Spells d path text ∧ Yaml.load text = .ok v ∧ v.isTrue = true ∧ v.entries? = some es

/-- The items of a table in a file. -/
def tableItems (es : List (Value × Value)) (t : TableName) : List RuleItem :=
  match Value.field es t.name with
  | .null => []
  | v =>
    match v.entries? with
    | some entries => entries.map fun e => .entry t e.1 e.2
    | none => [.useless (.sectionShape t.name path) rfl]

/-- A file consists of items: of itself, if it cannot be opened, is not YAML, is empty or is no
mapping, and else of the rules for commands and the tables in it. -/
inductive Consists : List RuleItem → Prop where
  /-- The file cannot be opened. -/
  | unreadable {defect : FileDefect} {place : Text}
    (h : d.read path = .error (.file defect place)) :
    Consists [.useless (.unreadable path defect place) rfl]
  /-- The file is not YAML. -/
  | notYaml {text : Text} (ht : Spells d path text) (h : Yaml.load text = .error .malformed) :
    Consists [.useless (.notYaml path) rfl]
  /-- The file is empty. -/
  | empty {text : Text} {v : Value} (ht : Spells d path text) (hv : Yaml.load text = .ok v)
    (h : v.isTrue = false) : Consists [.useless (.empty path) rfl]
  /-- The file is no mapping. -/
  | notMapping {text : Text} {v : Value} (ht : Spells d path text) (hv : Yaml.load text = .ok v)
    (hn : v.isTrue = true) (h : v.entries? = none) : Consists [.useless (.notMapping path) rfl]
  /-- The file is a mapping. -/
  | mapping {es : List (Value × Value)} {members : List Value} (h : Holds d path es)
    (hm : (Value.field es "command_rules").elementsIfTrue = .ok members) :
    Consists (members.map (.command path) ++ TableName.all.flatMap (tableItems path es))

/-- What stops the reading of a file, and with which fault. -/
inductive Stops : Fault → Prop where
  /-- The path is no name of a file. -/
  | name {f : Fault} (h : Disk.nameFault? path = some f) : Stops f
  /-- The file is no text. -/
  | bytes {bytes : List UInt8} {defect : Utf8.Defect} (hb : d.read path = .ok bytes)
    (h : Utf8.readPieces bytes = .error defect) : Stops (.undecodable defect)
  /-- The file is YAML in form, but a value in it does not exist. -/
  | value {text : Text} {f : Fault} (ht : Spells d path text)
    (h : Yaml.load text = .error (.fault f)) : Stops f
  /-- The section of the rules for commands has no members. -/
  | members {es : List (Value × Value)} {f : Fault} (hh : Holds d path es)
    (h : (Value.field es "command_rules").elementsIfTrue = .error f) : Stops f

variable {d path}

/-- Rules for commands are read like items. -/
theorem commandRules_eq (members : List Value) :
    commandRules path members = (members.map (RuleItem.command path)).forM RuleItem.read := by
  induction members with
  | nil => rfl
  | cons v r ih =>
    rw [commandRules, List.map_cons, forM_cons, ← ih, RuleItem.read, bind_assoc]
    congr 1
    funext rule?
    cases rule? with
    | none => rfl
    | some rule => rfl

/-- The entries of a table are read like items. -/
theorem tableEntries_eq (t : TableName) (entries : List (Value × Value)) :
    tableEntries t entries =
      (entries.map fun e => RuleItem.entry t e.1 e.2).forM RuleItem.read := by
  induction entries with
  | nil => rfl
  | cons e r ih =>
    obtain ⟨k, v⟩ := e
    -- The steps are the same on both sides, but chained from the left and from the right.
    rw [tableEntries, List.map_cons, forM_cons, ← ih, RuleItem.read, bind_assoc]
    congr 1
    funext name
    rw [bind_assoc]
    congr 1
    funext rule?
    cases rule? with
    | none => rfl
    | some rule =>
      dsimp only
      rw [bind_assoc]
      congr 1
      funext store
      split
      · rw [bind_assoc]
      · rfl

/-- A table is read like its items. -/
theorem table_eq (es : List (Value × Value)) (t : TableName) :
    table path es t = (tableItems path es t).forM RuleItem.read := by
  unfold table tableItems
  cases Value.field es t.name with
  | null => rfl
  | map entries => exact tableEntries_eq t entries
  | knot drawing cells i =>
    dsimp only
    cases (Value.knot drawing cells i).entries? with
    | some entries => exact tableEntries_eq t entries
    | none => exact (RuleItem.forM_useless _ rfl).symm
  | _ => exact (RuleItem.forM_useless _ rfl).symm

/-- Tables are read like their items. -/
theorem tables_eq (es : List (Value × Value)) (ts : List TableName) :
    ts.forM (table path es) = (ts.flatMap (tableItems path es)).forM RuleItem.read := by
  induction ts with
  | nil => rfl
  | cons t r ih => rw [forM_cons, List.flatMap_cons, forM_append, table_eq, ih]

/-- What is read of a file that spells a text. -/
theorem Spells.file_eq {text : Text} (h : Spells d path text) :
    file d path = match Yaml.load text with
      | .error .malformed => note (.notYaml path)
      | .error (.fault f) => throw f
      | .ok v => content path v := by
  obtain ⟨bytes, hb, ht⟩ := h
  unfold file
  rcases hload : Yaml.load text with (_ | f) | v
  · simp only [hb, ht, hload]
  · simp only [hb, ht, hload]
  · simp only [hb, ht, hload]

/-- A file is read like the items of which it consists. -/
theorem Consists.file_eq {items : List RuleItem} (h : Consists d path items) :
    file d path = items.forM RuleItem.read := by
  -- A file that is of no use consists of one item, which is a note; a mapping of its rules and
  -- tables.
  cases h with
  | unreadable h =>
    unfold file
    rw [h]
    exact (RuleItem.forM_useless _ rfl).symm
  | notYaml ht h =>
    rw [ht.file_eq, h]
    exact (RuleItem.forM_useless _ rfl).symm
  | empty ht hv h =>
    simp only [ht.file_eq, hv, content, h]
    exact (RuleItem.forM_useless _ rfl).symm
  | notMapping ht hv hn h =>
    simp only [ht.file_eq, hv, content, hn, h]
    exact (RuleItem.forM_useless _ rfl).symm
  | @mapping es members h hm =>
    obtain ⟨text, v, ht, hv, hn, he⟩ := h
    rw [forM_append, ← commandRules_eq, ← tables_eq]
    simp only [ht.file_eq, hv, content, hn, he, hm, if_pos]
    rfl

/-- A file with something that stops its reading gives this fault. -/
theorem Stops.file_eq {f : Fault} (h : Stops d path f) : file d path = throw f := by
  cases h with
  | name h =>
    unfold file
    rw [d.read_of_nameFault? h]
    rcases Disk.eq_of_nameFault? h with rfl | ⟨o, rfl⟩
    · rfl
    · rfl
  | bytes hb h =>
    unfold file
    simp only [hb, h]
  | value ht h => rw [ht.file_eq, h]
  | members hh h =>
    obtain ⟨text, v, ht, hv, hn, he⟩ := hh
    simp only [ht.file_eq, hv, content, hn, he, h, if_pos]
    rfl

/-- A file consists of items, or something stops its reading. -/
theorem consists_or_stops (d : Disk) (path : Text) :
    (∃ items, Consists d path items) ∨ ∃ f, Stops d path f := by
  -- The checks are those of the reading and in its order; the first that fails says what the file
  -- consists of, or that it stops everything.
  cases hname : Disk.nameFault? path with
  | some f => exact .inr ⟨f, .name hname⟩
  | none =>
    rcases d.read_cases hname with ⟨bytes, hb⟩ | ⟨defect, hb⟩
    · cases ht : Utf8.readPieces bytes with
      | error defect => exact .inr ⟨_, .bytes hb ht⟩
      | ok text =>
        have hspells : Spells d path text := ⟨bytes, hb, ht⟩
        rcases hv : Yaml.load text with (_ | f) | v
        · exact .inl ⟨_, .notYaml hspells hv⟩
        · exact .inr ⟨f, .value hspells hv⟩
        · cases hn : v.isTrue with
          | false => exact .inl ⟨_, .empty hspells hv hn⟩
          | true =>
            cases he : v.entries? with
            | none => exact .inl ⟨_, .notMapping hspells hv hn he⟩
            | some es =>
              have hh : Holds d path es := ⟨text, v, hspells, hv, hn, he⟩
              cases hm : (Value.field es "command_rules").elementsIfTrue with
              | error f => exact .inr ⟨f, .members hh hm⟩
              | ok members => exact .inl ⟨_, .mapping hh hm⟩
    · exact .inl ⟨_, .unreadable hb⟩

end RuleFile

end SurfaceAudit
