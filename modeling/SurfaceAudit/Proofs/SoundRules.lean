import SurfaceAudit.Proofs.RuleLoading

/-!
# What a store of rules always holds

In the tables of a store each name is once, and each rule for commands has the expression that its
pattern spells under some flags (`RuleTables.IsSound`). Every step of the loading keeps this
(`RuleStore.Loading.Maintains`), also one that ends with a fault, so it holds of every store that
can be reached by loading directories (`RuleStore.IsReached.isSound`).
-/

namespace SurfaceAudit

namespace SignalTable

/-- A name is once in a table if it is once among its keys, also after an entry is set. -/
theorem nodup_put {t : SignalTable} (h : (t.map (·.1)).Nodup) (name : Text) (rule : SignalRule) :
    ((t.put name rule).map (·.1)).Nodup := by
  unfold put
  split
  · -- A rule that is replaced keeps its name, so the names are the same and in the same order.
    have hkeys : (t.map fun e => if e.1 == name then (name, rule) else e).map (·.1) =
        t.map (·.1) := by
      rw [List.map_map]
      refine List.map_congr_left fun e _ => ?_
      simp only [Function.comp_apply]
      split
      · rename_i he
        exact (eq_of_beq he).symm
      · rfl
    rwa [hkeys]
  · rename_i hnew
    rw [List.map_append, List.nodup_append]
    refine ⟨h, by simp, ?_⟩
    rintro _ hk _ hname rfl
    obtain ⟨e, he, rfl⟩ := List.mem_map.mp hk
    refine hnew (List.any_eq_true.mpr ⟨e, he, ?_⟩)
    simpa using hname

/-- An entry is had by its name exactly if it is in the table. -/
theorem get?_eq_some_iff {t : SignalTable} (h : (t.map (·.1)).Nodup) {name : Text}
    {rule : SignalRule} : t.get? name = some rule ↔ (name, rule) ∈ t := by
  induction t with
  | nil => simp [get?]
  | cons e r ih =>
    rw [List.map_cons, List.nodup_cons] at h
    rw [get?_cons, List.mem_cons]
    split
    · rename_i he
      subst he
      have hnot : (e.1, rule) ∉ r := fun hmem => h.1 (List.mem_map.mpr ⟨_, hmem, rfl⟩)
      simp [hnot, Prod.ext_iff, eq_comm]
    · rename_i he
      rw [ih h.2]
      simp [Prod.ext_iff, Ne.symm he]

end SignalTable

/-- Tables in which each name is once, and rules with the expressions of their patterns. -/
structure RuleTables.IsSound (rules : RuleTables) : Prop where
  /-- A name is once in each table. -/
  once : ∀ t : TableName, ((t.of rules).map (·.1)).Nodup
  /-- The pattern of each rule spells its expression under some flags. -/
  parsed : ∀ rule ∈ rules.commands, ∃ flags, Pattern.Expr.parse flags rule.pattern = .ok rule.expr

/-- Empty tables are sound. -/
theorem RuleTables.isSound_empty : RuleTables.empty.IsSound where
  once t := by cases t <;> exact List.nodup_nil
  parsed _ h := absurd h (List.not_mem_nil)

/-- A store whose tables are sound, those that were read and those that are published. -/
structure RuleStore.IsSound (s : RuleStore) : Prop where
  /-- The tables that were read. -/
  pending : s.pending.IsSound
  /-- The tables that are published. -/
  tables : s.tables.IsSound

namespace RuleStore.Loading

variable {α β : Type}

/-- A step keeps a store sound, and its value is right if it has one. -/
def Maintains (step : Loading α) (right : α → Prop) : Prop :=
  ∀ s : RuleStore, s.IsSound →
    (step.run.run s).2.IsSound ∧ ∀ a, (step.run.run s).1 = .ok a → right a

/-- A value that is right keeps a store sound. -/
theorem Maintains.pure {right : α → Prop} {a : α} (h : right a) :
    (pure a : Loading α).Maintains right := by
  intro s hs
  refine ⟨hs, fun b hb => ?_⟩
  cases hb
  exact h

/-- A fault keeps a store sound, and has no value. -/
theorem Maintains.throw {right : α → Prop} (f : Fault) : (throw f : Loading α).Maintains right :=
  fun _ hs => ⟨hs, fun _ hb => by cases hb⟩

/-- A chain of two steps keeps a store sound if both do. -/
theorem Maintains.bind {step : Loading α} {k : α → Loading β} {first : α → Prop} {right : β → Prop}
    (h : step.Maintains first) (hk : ∀ a, first a → (k a).Maintains right) :
    (step >>= k).Maintains right := by
  intro s hs
  obtain ⟨hs', hfirst⟩ := h s hs
  rw [run_bind]
  rcases hrun : step.run.run s with ⟨f | a, s'⟩
  · rw [hrun] at hs'
    exact ⟨hs', fun b hb => by cases hb⟩
  · rw [hrun] at hs' hfirst
    exact hk a (hfirst a rfl) s' hs'

/-- An operation that looks at no store, and what follows it. -/
theorem Maintains.ofAttempt_bind {x : Attempt α} {k : α → Loading β} {right : β → Prop}
    (hk : ∀ a, x = .ok a → (k a).Maintains right) : (ofAttempt x >>= k).Maintains right :=
  Maintains.bind (fun _ hs => ⟨hs, fun _ ha => ha⟩) hk

/-- A defect that is noted changes no table. -/
theorem maintains_note (d : RuleDefect) : (note d).Maintains fun _ => True :=
  fun _ hs => ⟨⟨hs.pending, hs.tables⟩, fun _ _ => trivial⟩

/-- An entry that is refused gives nothing. -/
theorem Maintains.refuse {right : Option α → Prop} (d : RuleDefect) (h : right none) :
    (refuse d : Loading (Option α)).Maintains right :=
  (maintains_note d).bind fun _ _ => .pure h

/-- Steps for the members of a list keep a store sound if each does. -/
theorem maintains_forM {f : α → Loading Unit} (h : ∀ x, (f x).Maintains fun _ => True)
    (xs : List α) : (xs.forM f).Maintains fun _ => True := by
  induction xs with
  | nil => exact .pure trivial
  | cons x r ih => exact (h x).bind fun _ _ => ih

/-- The reading of the template of an impact keeps a store sound. -/
theorem maintains_template? (v : Value) : (template? v).Maintains fun _ => True :=
  .ofAttempt_bind fun _ _ => .pure trivial

/-- The reading of a flag keeps a store sound. -/
theorem maintains_flag? (v : Value) : (flag? v).Maintains fun _ => True :=
  .ofAttempt_bind fun _ _ => .pure trivial

/-- The reading of the flags of a rule keeps a store sound. -/
theorem maintains_flags (signal : Text) (names : List Value) (done : Pattern.Flags) :
    (flags signal names done).Maintains fun _ => True := by
  induction names generalizing done with
  | nil => exact .pure trivial
  | cons v r ih =>
    unfold flags
    refine (maintains_flag? v).bind fun flag _ => ?_
    cases flag with
    | some f => exact ih _
    | none => exact .ofAttempt_bind fun _ _ => (maintains_note _).bind fun _ _ => ih done

/-- A pattern that is read is spelled by its text under the flags that are named. -/
theorem maintains_pattern? (signal : Text) (es : List (Value × Value)) :
    (pattern? signal es).Maintains fun o =>
      ∀ p, o = some p → ∃ flags, Pattern.Expr.parse flags p.1 = .ok p.2 := by
  unfold pattern?
  refine .ofAttempt_bind fun text _ => ?_
  split
  · exact .refuse _ (by simp)
  refine .ofAttempt_bind fun names _ => ?_
  refine (maintains_flags signal names []).bind fun flags _ => ?_
  split
  · rename_i e he
    refine .pure fun p hp => ?_
    cases hp
    exact ⟨flags, he⟩
  · exact .refuse _ (by simp)
  · exact .throw _

/-- A rule that is read has the expression that its pattern spells. -/
theorem maintains_rule? (es : List (Value × Value)) :
    (rule? es).Maintains fun o => ∀ rule, o = some rule →
      ∃ flags, Pattern.Expr.parse flags rule.pattern = .ok rule.expr := by
  unfold rule?
  refine .ofAttempt_bind fun signal _ => ?_
  split
  · refine (maintains_template? _).bind fun template? _ => ?_
    cases template? with
    | none => exact .ofAttempt_bind fun _ _ => .refuse _ (by simp)
    | some template =>
      refine (maintains_pattern? signal es).bind fun pattern? hpattern => ?_
      cases pattern? with
      | none => exact .pure (by simp)
      | some p =>
        refine .pure fun rule hrule => ?_
        cases hrule
        exact hpattern p rfl
  · exact .refuse _ (by simp)

/-- The reading of a rule for commands keeps a store sound, and the pattern of the rule spells its
expression. -/
theorem maintains_commandRule? (path : Text) (v : Value) :
    (commandRule? path v).Maintains fun o => ∀ rule, o = some rule →
      ∃ flags, Pattern.Expr.parse flags rule.pattern = .ok rule.expr := by
  unfold commandRule?
  split
  · exact .refuse _ (by simp)
  · split
    · exact .refuse _ (by simp)
    · exact maintains_rule? _

/-- A rule whose expression is spelled by its pattern may be added. -/
theorem maintains_push {rule : CommandRule}
    (h : ∃ flags, Pattern.Expr.parse flags rule.pattern = .ok rule.expr) :
    (modify fun s : RuleStore => { s with
      pending.commands := s.pending.commands ++ [rule] } : Loading Unit).Maintains
        fun _ => True := by
  refine fun s hs => ⟨⟨⟨?_, ?_⟩, hs.tables⟩, fun _ _ => trivial⟩
  · intro t
    have := hs.pending.once t
    cases t <;> exact this
  · exact List.forall_mem_append.mpr ⟨hs.pending.parsed, List.forall_mem_singleton.mpr h⟩

/-- The rules for commands of a file keep a store sound: each goes to the tables with its
expression. -/
theorem maintains_commandRules (path : Text) (members : List Value) :
    (commandRules path members).Maintains fun _ => True := by
  induction members with
  | nil => exact .pure trivial
  | cons v r ih =>
    unfold commandRules
    refine (maintains_commandRule? path v).bind fun rule? hrule => ?_
    cases rule? with
    | none => exact ih
    | some rule => exact (maintains_push (hrule rule rfl)).bind fun _ _ => ih

/-- The reading of a signal keeps a store sound. -/
theorem maintains_signal? (t : TableName) (name : Text) (es : List (Value × Value)) :
    (signal? t name es).Maintains fun _ => True := by
  unfold signal?
  split
  · exact .pure trivial
  · split
    · exact .ofAttempt_bind fun _ _ => .pure trivial
    · exact .refuse _ trivial

/-- The reading of the rule of an entry keeps a store sound. -/
theorem maintains_signalRule? (t : TableName) (name : Text) (v : Value) :
    (signalRule? t name v).Maintains fun _ => True := by
  unfold signalRule?
  split
  · exact .refuse _ trivial
  · refine (maintains_template? _).bind fun template? _ => ?_
    cases template? with
    | none => exact .ofAttempt_bind fun _ _ => .refuse _ trivial
    | some template =>
      refine (maintains_signal? t name _).bind fun signal? _ => ?_
      cases signal? with
      | none => exact .pure trivial
      | some signal => exact .pure trivial

/-- An entry may be set in a table. -/
theorem maintains_put (t : TableName) (name : Text) (rule : SignalRule) :
    (modify fun s : RuleStore => { s with
      pending := t.modify (·.put name rule) s.pending } : Loading Unit).Maintains
        fun _ => True := by
  refine fun s hs => ⟨⟨⟨?_, ?_⟩, hs.tables⟩, fun _ _ => trivial⟩
  · intro t'
    change ((t'.of (t.modify (·.put name rule) s.pending)).map (·.1)).Nodup
    rw [of_modify]
    split
    · exact SignalTable.nodup_put (hs.pending.once t') name rule
    · exact hs.pending.once t'
  · have hcommands : (t.modify (·.put name rule) s.pending).commands = s.pending.commands := by
      cases t <;> rfl
    intro r hr
    exact hs.pending.parsed r (hcommands ▸ hr)

/-- The entries of a table keep a store sound: each takes the place of the one with its name. -/
theorem maintains_tableEntries (t : TableName) (entries : List (Value × Value)) :
    (tableEntries t entries).Maintains fun _ => True := by
  induction entries with
  | nil => exact .pure trivial
  | cons e r ih =>
    obtain ⟨k, v⟩ := e
    unfold tableEntries
    refine .ofAttempt_bind fun name _ => ?_
    refine (maintains_signalRule? t name v).bind fun rule? _ => ?_
    cases rule? with
    | none => exact ih
    | some rule =>
      -- The store is looked at only to note that a name was there before.
      have hget : (get : Loading RuleStore).Maintains fun _ => True :=
        fun s hs => ⟨hs, fun _ _ => trivial⟩
      refine hget.bind fun store _ => ?_
      split
      · exact (maintains_note _).bind fun _ _ => (maintains_put t name rule).bind fun _ _ => ih
      · exact (maintains_put t name rule).bind fun _ _ => ih

/-- The section of a table keeps a store sound. -/
theorem maintains_table (path : Text) (content : List (Value × Value)) (t : TableName) :
    (table path content t).Maintains fun _ => True := by
  unfold table
  split
  · exact .pure trivial
  · split
    · exact maintains_tableEntries t _
    · exact maintains_note _

/-- The content of a file keeps a store sound. -/
theorem maintains_content (path : Text) (v : Value) :
    (content path v).Maintains fun _ => True := by
  unfold content
  split
  · split
    · exact .ofAttempt_bind fun members _ => (maintains_commandRules path members).bind
        fun _ _ => maintains_forM (maintains_table path _) _
    · exact maintains_note _
  · exact maintains_note _

/-- A file keeps a store sound, whatever is in it. -/
theorem maintains_file (d : Disk) (path : Text) : (file d path).Maintains fun _ => True := by
  unfold file
  split
  · exact maintains_note _
  · exact .throw _
  · split
    · exact .throw _
    · split
      · exact maintains_note _
      · exact .throw _
      · exact maintains_content path _

/-- Of rules with one priority the first is kept, and nothing else. -/
theorem maintains_distinct (rules kept : List CommandRule) :
    (distinct rules kept).Maintains fun all => ∀ rule ∈ all, rule ∈ rules ∨ rule ∈ kept := by
  induction rules generalizing kept with
  | nil => exact .pure fun rule hrule => .inr (List.mem_reverse.mp hrule)
  | cons rule r ih =>
    -- Whether the rule is kept or not, what goes on holds no other rules than it and those kept
    -- before.
    have hrest {kept' : List CommandRule} (h : kept' ⊆ rule :: kept) :
        (distinct r kept').Maintains fun all => ∀ x ∈ all, x ∈ rule :: r ∨ x ∈ kept := by
      intro s hs
      obtain ⟨hs', hall⟩ := ih kept' s hs
      refine ⟨hs', fun all hrun x hx => ?_⟩
      rcases hall all hrun x hx with hx | hx
      · exact .inl (List.mem_cons_of_mem _ hx)
      · rcases List.mem_cons.mp (h hx) with rfl | hx
        · exact .inl List.mem_cons_self
        · exact .inr hx
    unfold distinct
    split
    · exact .ofAttempt_bind fun _ _ => (maintains_note _).bind
        fun _ _ => hrest (List.subset_cons_self _ _)
    · exact hrest (List.Subset.refl _)

/-- Rules whose expressions are spelled by their patterns may be published. -/
theorem maintains_setTables {commands : List CommandRule}
    (h : ∀ rule ∈ commands, ∃ flags, Pattern.Expr.parse flags rule.pattern = .ok rule.expr) :
    (modify fun s : RuleStore => { s with
      tables := { s.pending with commands } } : Loading Unit).Maintains fun _ => True := by
  refine fun s hs => ⟨⟨hs.pending, ?_, h⟩, fun _ _ => trivial⟩
  intro t
  have := hs.pending.once t
  cases t <;> exact this

/-- What was read may be published. -/
theorem maintains_publish : publish.Maintains fun _ => True := by
  intro s hs
  have hperm : (byPriority s.pending.commands).Perm s.pending.commands := Rank.perm_sort _ _
  have hrun : publish.run.run s = ((distinct (byPriority s.pending.commands) [] >>= fun commands =>
      modify fun s => { s with tables := { s.pending with commands } }).run.run s) := rfl
  rw [hrun]
  refine (maintains_distinct (byPriority s.pending.commands) []).bind (fun commands hcommands => ?_)
    s hs
  refine maintains_setTables fun rule hrule => ?_
  rcases hcommands rule hrule with hread | hnil
  · exact hs.pending.parsed rule (hperm.mem_iff.mp hread)
  · exact absurd hnil List.not_mem_nil

/-- Loading a directory keeps a store sound. -/
theorem maintains_loading (d : Disk) : (loading d).Maintains fun _ => True := by
  have hget : (get : Loading RuleStore).Maintains fun _ => True :=
    fun s hs => ⟨hs, fun _ _ => trivial⟩
  refine hget.bind fun store _ => .ofAttempt_bind fun there _ => ?_
  split
  · refine (maintains_forM (fun name => ?_) _).bind fun _ _ => maintains_publish
    exact maintains_file d (Path.below store.directory name)
  · exact maintains_note _

end RuleStore.Loading

namespace RuleStore

/-- A store is reached by loading directories any number of times, where a load may have failed. -/
inductive IsReached : RuleStore → Prop where
  /-- Nothing was loaded. -/
  | new (directory : Text) : IsReached { directory }
  /-- The directory was loaded once more, as it was then. -/
  | load {s : RuleStore} (h : IsReached s) (d : Disk) : IsReached (s.load d).2

/-- A store that is reached is sound. -/
theorem IsReached.isSound {s : RuleStore} (h : s.IsReached) : s.IsSound := by
  induction h with
  | new directory => exact ⟨RuleTables.isSound_empty, RuleTables.isSound_empty⟩
  | load _ d ih => exact (Loading.maintains_loading d _ ih).1

end RuleStore

end SurfaceAudit
