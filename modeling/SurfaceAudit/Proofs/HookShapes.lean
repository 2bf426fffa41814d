import SurfaceAudit.Hooks
import SurfaceAudit.Proofs.Merging
import SurfaceAudit.Proofs.Segments
import SurfaceAudit.Proofs.Steps
import SurfaceAudit.Rules.Bundled

/-!
# The shapes of hook configurations

A plan says which handlers each event has (`Hooks.Plan`). A configuration may spell it in several
shapes, which can be mixed (`Hooks.Spells`): the handlers of an event one by one, in groups, or a
single one in place of a list; values that are neither in between; and all events in a mapping of
their own. Whatever the shape, the handlers that are found are those of the plan
(`Hooks.Spells.handlers_eq`), and so is the evidence (`hook_shapes_agree`).
-/

namespace SurfaceAudit

/-- Nothing but blanks is trimmed away altogether. -/
theorem Text.strip_eq_nil_iff {t : Text} : t.strip = [] ↔ ∀ p ∈ t, p.isBlank = true := by
  unfold strip trim trimRight trimLeft
  rw [List.reverse_eq_nil_iff, List.dropWhile_eq_nil_iff]
  have hleft : (∀ p ∈ t, p.isBlank = true) ↔ t.dropWhile Point.isBlank = [] :=
    List.dropWhile_eq_nil_iff.symm
  rw [hleft]
  cases hd : t.dropWhile Point.isBlank with
  | nil => simp
  | cons p r =>
    -- What is left begins with a code point that is no blank.
    have hhead := List.head?_dropWhile_not Point.isBlank t
    rw [hd] at hhead
    refine iff_of_false (fun h => ?_) (List.cons_ne_nil p r)
    simp [h p (by simp)] at hhead

namespace Value

/-- A mapping is no sequence. -/
theorem items?_eq_none {v : Value} {es : List (Value × Value)} (he : v.entries? = some es) :
    v.items? = none := by
  unfold entries? at he
  unfold items?
  split at he
  · rename_i hv
    rw [hv]
  · cases he

/-- A sequence is no mapping. -/
theorem entries?_eq_none {v : Value} {vs : List Value} (hi : v.items? = some vs) :
    v.entries? = none := by
  cases he : v.entries? with
  | none => rfl
  | some es =>
    rw [items?_eq_none he] at hi
    cases hi

end Value

namespace Hooks

/-- The entries of a handler. -/
abbrev Handler := List (Value × Value)

/-- Events with their handlers, in order. No event has the name, and no handler the key, under which
handlers stand in a configuration. -/
structure Plan where
  /-- The events, each with its handlers. -/
  events : List (Value × List Handler)
  /-- What the events are called. -/
  names : ∀ x ∈ events, x.1.isText "hooks" = false
  /-- What the handlers hold. -/
  bare : ∀ x ∈ events, ∀ h ∈ x.2, Value.lookup h "hooks" = none

namespace Plan

/-- The handlers, each with the name of its event. -/
def handlers (p : Plan) : List (Value × Handler) :=
  p.events.flatMap fun (name, hs) => hs.map (name, ·)

/-- The configuration that maps each event to the list of its handlers. -/
def flat (p : Plan) : Value :=
  .map (p.events.map fun (name, hs) => (name, .list (hs.map .map)))

end Plan

/-- A list holds handlers, and values that are no mappings in between. -/
inductive SpellsGroup : List Value → List Handler → Prop where
  /-- Nothing. -/
  | nil : SpellsGroup [] []
  /-- A handler. -/
  | handler {v : Value} {h : Handler} {vs : List Value} {hs : List Handler}
      (entries : v.entries? = some h) (rest : SpellsGroup vs hs) : SpellsGroup (v :: vs) (h :: hs)
  /-- A value that is no mapping. -/
  | junk {v : Value} {vs : List Value} {hs : List Handler} (entries : v.entries? = none)
      (rest : SpellsGroup vs hs) : SpellsGroup (v :: vs) hs

/-- An entry in the list of an event stands for handlers. -/
inductive SpellsEntry : Value → List Handler → Prop where
  /-- A handler. -/
  | handler {v : Value} {h : Handler} (entries : v.entries? = some h)
      (bare : Value.lookup h "hooks" = none) : SpellsEntry v [h]
  /-- A group, which holds a list of handlers besides whatever else. -/
  | group {v inner : Value} {g : List (Value × Value)} {vs : List Value} {hs : List Handler}
      (entries : v.entries? = some g) (key : Value.lookup g "hooks" = some inner)
      (items : inner.items? = some vs) (handlers : SpellsGroup vs hs) : SpellsEntry v hs
  /-- A group that holds a handler in place of a list. -/
  | lone {v inner : Value} {g : List (Value × Value)} {h : Handler} (entries : v.entries? = some g)
      (key : Value.lookup g "hooks" = some inner) (handler : inner.entries? = some h)
      (nonempty : h ≠ []) : SpellsEntry v [h]
  /-- A value that is no mapping. -/
  | junk {v : Value} (entries : v.entries? = none) : SpellsEntry v []

/-- The entries in the list of an event stand for handlers, one entry after the other. -/
inductive SpellsEntries : List Value → List Handler → Prop where
  /-- Nothing. -/
  | nil : SpellsEntries [] []
  /-- An entry and those after it. -/
  | cons {v : Value} {vs : List Value} {hs hs' : List Handler} (entry : SpellsEntry v hs)
      (rest : SpellsEntries vs hs') : SpellsEntries (v :: vs) (hs ++ hs')

/-- The value of an event stands for handlers. -/
inductive SpellsEvent : Value → List Handler → Prop where
  /-- A list of entries. -/
  | list {v : Value} {vs : List Value} {hs : List Handler} (items : v.items? = some vs)
      (handlers : SpellsEntries vs hs) : SpellsEvent v hs
  /-- One entry in place of a list. -/
  | object {v : Value} {h : List (Value × Value)} {hs : List Handler}
      (entries : v.entries? = some h) (entry : SpellsEntry v hs) : SpellsEvent v hs

/-- A mapping stands for events with their handlers. -/
inductive SpellsEvents : List (Value × Value) → List (Value × List Handler) → Prop where
  /-- Nothing. -/
  | nil : SpellsEvents [] []
  /-- An event. -/
  | event {name v : Value} {hs : List Handler} {es : List (Value × Value)}
      {xs : List (Value × List Handler)} (event : SpellsEvent v hs) (rest : SpellsEvents es xs) :
      SpellsEvents ((name, v) :: es) ((name, hs) :: xs)
  /-- A value that is neither a list nor a mapping. -/
  | junk {name v : Value} {es : List (Value × Value)} {xs : List (Value × List Handler)}
      (items : v.items? = none) (entries : v.entries? = none) (rest : SpellsEvents es xs) :
      SpellsEvents ((name, v) :: es) xs

/-- A configuration spells a plan. -/
inductive Spells : Value → Plan → Prop where
  /-- The configuration is the mapping of events. -/
  | flat {config : Value} {es : List (Value × Value)} {p : Plan}
      (entries : config.entries? = some es) (key : Value.lookup es "hooks" = none)
      (events : SpellsEvents es p.events) : Spells config p
  /-- The mapping of events is in the configuration, besides whatever else. -/
  | wrapped {config inner : Value} {top es : List (Value × Value)} {p : Plan}
      (entries : config.entries? = some top) (key : Value.lookup top "hooks" = some inner)
      (inner_entries : inner.entries? = some es) (events : SpellsEvents es p.events) :
      Spells config p

/-- The mappings in a group are the handlers that it stands for. -/
theorem SpellsGroup.mappings_eq {vs : List Value} {hs : List Handler} (h : SpellsGroup vs hs) :
    mappings vs = hs := by
  induction h with
  | nil => rfl
  | handler entries _ ih => simpa [mappings, entries] using ih
  | junk entries _ ih => simpa [mappings, entries] using ih

/-- A container that has entries counts as true. -/
theorem isTrue_of_entries {v : Value} {h : Handler} (he : v.entries? = some h) (hne : h ≠ []) :
    v.isTrue = true := by
  cases v with
  | map entries =>
    cases he
    simpa [Value.isTrue] using hne
  | knot drawing cells i => rfl
  | _ => cases he

/-- What is found in the list of an event that has one entry. -/
theorem flatMap_mappings_singleton {v : Value} {h : Handler} (he : v.entries? = some h) :
    (mappings [v]).flatMap handlersOfEntry = handlersOfEntry h := by
  simp [mappings, he]

/-- The handlers that are found in an entry are those that it stands for. -/
theorem SpellsEntry.handlers_eq {v : Value} {hs : List Handler} (h : SpellsEntry v hs) :
    (mappings [v]).flatMap handlersOfEntry = hs := by
  cases h with
  | handler entries bare =>
    rw [flatMap_mappings_singleton entries]
    unfold handlersOfEntry Value.field
    rw [bare]
    rfl
  | @group inner g vs _ entries key items handlers =>
    rw [flatMap_mappings_singleton entries]
    unfold handlersOfEntry Value.field
    rw [key, Option.getD_some]
    split
    · cases items
    · rw [items]
      exact handlers.mappings_eq
  | @lone inner g h entries key handler nonempty =>
    rw [flatMap_mappings_singleton entries]
    unfold handlersOfEntry Value.field
    rw [key, Option.getD_some]
    split
    · cases handler
    · -- What stands under the key is no list, and counts as true since it is not empty.
      rw [Value.items?_eq_none handler]
      dsimp only
      rw [if_pos (isTrue_of_entries handler nonempty)]
      simp [mappings, handler]
  | junk entries => simp [mappings, entries]

/-- The handlers that are found in the entries of a list are those that they stand for. -/
theorem SpellsEntries.handlers_eq {vs : List Value} {hs : List Handler} (h : SpellsEntries vs hs) :
    (mappings vs).flatMap handlersOfEntry = hs := by
  induction h with
  | nil => rfl
  | @cons v vs hs hs' entry rest ih =>
    have hcons : mappings (v :: vs) = mappings [v] ++ mappings vs :=
      List.filterMap_append (l := [v])
    rw [hcons, List.flatMap_append, entry.handlers_eq, ih]

/-- The handlers that are found for an event are those that its value stands for. -/
theorem SpellsEvent.handlers_eq {v : Value} {hs : List Handler} (h : SpellsEvent v hs) :
    handlersOfEvent v = hs := by
  cases h with
  | list items handlers =>
    unfold handlersOfEvent
    rw [Value.entries?_eq_none items, items]
    exact handlers.handlers_eq
  | object entries entry =>
    unfold handlersOfEvent
    rw [entries, ← entry.handlers_eq, flatMap_mappings_singleton entries]

/-- The handlers that are found in a mapping of events are those that it stands for, each with the
name of its event. -/
theorem SpellsEvents.handlers_eq {es : List (Value × Value)} {xs : List (Value × List Handler)}
    (h : SpellsEvents es xs) : handlers es = xs.flatMap fun (name, hs) => hs.map (name, ·) := by
  unfold handlers
  induction h with
  | nil => rfl
  | @event name v hs es xs event rest ih =>
    rw [List.flatMap_cons, List.flatMap_cons, ih]
    dsimp only
    rw [event.handlers_eq]
  | @junk name v es xs items entries rest ih =>
    -- What is neither a mapping nor a list has no handlers, and adds nothing to the row.
    have hnone : handlersOfEvent v = [] := by
      unfold handlersOfEvent
      rw [entries, items]
      rfl
    rw [List.flatMap_cons, ih]
    dsimp only
    rw [hnone]
    rfl

/-- The events of a configuration without a mapping for them. -/
theorem events_of_bare {config : Value} {es : List (Value × Value)}
    (entries : config.entries? = some es) (key : Value.lookup es "hooks" = none) :
    events config = es := by
  unfold events
  rw [entries]
  dsimp only
  rw [key]

/-- The events of a configuration with a mapping for them. -/
theorem events_of_wrapped {config inner : Value} {top : List (Value × Value)}
    (entries : config.entries? = some top) (key : Value.lookup top "hooks" = some inner) :
    events config = inner.entries?.getD [] := by
  unfold events
  rw [entries]
  dsimp only
  rw [key]

/-- Whatever the shape, the handlers that are found are those of the plan. -/
theorem Spells.handlers_eq {config : Value} {p : Plan} (h : Spells config p) :
    handlers (events config) = p.handlers := by
  cases h with
  | flat entries key events =>
    rw [events_of_bare entries key]
    exact events.handlers_eq
  | wrapped entries key inner_entries events =>
    rw [events_of_wrapped entries key, inner_entries]
    exact events.handlers_eq

/-- The list of the handlers themselves. -/
theorem spellsEntries_map {hs : List Handler} (h : ∀ x ∈ hs, Value.lookup x "hooks" = none) :
    SpellsEntries (hs.map .map) hs := by
  induction hs with
  | nil => exact .nil
  | cons x hs ih =>
    obtain ⟨hx, hs⟩ := List.forall_mem_cons.mp h
    exact .cons (.handler rfl hx) (ih hs)

/-- A mapping of events with lists of handlers stands for these events, if no handler is a group. -/
theorem spellsEvents_map {xs : List (Value × List Handler)}
    (h : ∀ x ∈ xs, ∀ y ∈ x.2, Value.lookup y "hooks" = none) :
    SpellsEvents (xs.map fun (name, hs) => (name, .list (hs.map .map))) xs := by
  induction xs with
  | nil => exact .nil
  | cons x xs ih =>
    obtain ⟨hx, hxs⟩ := List.forall_mem_cons.mp h
    exact .event (.list rfl (spellsEntries_map hx)) (ih hxs)

/-- A plan is spelled by the configuration that maps each event to the list of its handlers. -/
theorem Plan.spells_flat (p : Plan) : Spells p.flat p := by
  refine .flat rfl ?_ (spellsEvents_map p.bare)
  unfold Value.lookup
  rw [Option.map_eq_none_iff, List.find?_eq_none]
  intro e he
  obtain ⟨x, hx, rfl⟩ := List.mem_map.mp he
  simpa using p.names x hx

section Evidence

variable {rules : RuleTables} {file : Text}

/-- Evidence reports a handler of an event: its type is that of commands, and its command, which is
not blank, has a class. -/
inductive Reports (rules : RuleTables) (file : Text) : Value × Handler → Evidence → Prop where
  /-- The evidence is of the class of the command. -/
  | intro {name : Value} {h : Handler} {event c : Text} {k : Classification}
      (shown : name.shown = .ok event) (type_eq : Value.field h "type" = .text "command")
      (command_eq : Value.field h "command" = .text c) (visible : ∃ p ∈ c, p.isBlank = false)
      (class_eq : rules.classifyCommand c = some k) :
      Reports rules file (name, h) ⟨.hook, file, none, ("hook-command: " : Text) ++ k.signal,
        event ++ " hook runs '" ++ k.signal ++ "': " ++ c.take 120, k.impact⟩

/-- Evidence reports handlers: in order, one piece for each handler that is reported by any. -/
inductive ReportsAll (rules : RuleTables) (file : Text) :
    List (Value × Handler) → List Evidence → Prop where
  /-- Nothing. -/
  | nil : ReportsAll rules file [] []
  /-- A handler that is reported. -/
  | reported {x : Value × Handler} {e : Evidence} {xs : List (Value × Handler)}
      {es : List Evidence} (report : Reports rules file x e) (rest : ReportsAll rules file xs es) :
      ReportsAll rules file (x :: xs) (e :: es)
  /-- A handler that nothing reports. -/
  | silent {x : Value × Handler} {xs : List (Value × Handler)} {es : List Evidence}
      (silent : ∀ e, ¬Reports rules file x e) (rest : ReportsAll rules file xs es) :
      ReportsAll rules file (x :: xs) es

/-- The command of a handler. -/
theorem command?_eq_some_iff {h : Handler} {c : Text} : command? h = some c ↔
    Value.field h "type" = .text "command" ∧ Value.field h "command" = .text c ∧
      ∃ p ∈ c, p.isBlank = false := by
  -- Stripping leaves something exactly if there is a code point that is not blank.
  have hvisible (c : Text) : (Text.strip c).isEmpty = false ↔ ∃ p ∈ c, p.isBlank = false := by
    rw [← Bool.not_eq_true, List.isEmpty_iff, Text.strip_eq_nil_iff]
    simp
  unfold command?
  rw [← Value.isText_iff, ← hvisible]
  constructor
  · intro hc
    split at hc
    · rename_i htype
      split at hc
      · rename_i c' hcommand
        split at hc
        · cases hc
        · rename_i hstrip
          cases hc
          exact ⟨htype, hcommand, Bool.eq_false_iff.mpr hstrip⟩
      · cases hc
    · cases hc
  · rintro ⟨htype, hcommand, hstrip⟩
    rw [if_pos htype, hcommand]
    simp [hstrip]

/-- Evidence reports a handler of an event, whose name is written out, exactly if it is what is
found for the handler. -/
theorem reports_iff {name : Value} {event : Text} (hname : name.shown = .ok event) {h : Handler}
    {e : Evidence} :
    Reports rules file (name, h) e ↔ handlerEvidence? rules file event h = some e := by
  unfold handlerEvidence?
  simp only [Option.bind_eq_bind, Option.bind_eq_some_iff, command?_eq_some_iff]
  constructor
  · rintro ⟨hshown, htype, hcommand, hvisible, hclass⟩
    cases hname.symm.trans hshown
    exact ⟨_, ⟨htype, hcommand, hvisible⟩, _, hclass, rfl⟩
  · rintro ⟨c, ⟨htype, hcommand, hvisible⟩, k, hclass, he⟩
    cases he
    exact .intro hname htype hcommand hvisible hclass

/-- The evidence of handlers whose events have writable names reports them. -/
theorem exists_reportsAll (rules : RuleTables) (file : Text) {xs : List (Value × Handler)}
    (h : ∀ x ∈ xs, ∃ t, x.1.shown = .ok t) :
    ∃ found, (xs.mapM fun (name, handler) => do
        let event ← name.shown
        return handlerEvidence? rules file event handler) = .ok found ∧
      ReportsAll rules file xs (found.filterMap id) := by
  induction xs with
  | nil => exact ⟨[], rfl, .nil⟩
  | cons x xs ih =>
    obtain ⟨name, handler⟩ := x
    obtain ⟨⟨event, hname⟩, hxs⟩ := List.forall_mem_cons.mp h
    obtain ⟨found, hfound, hreports⟩ := ih hxs
    refine ⟨handlerEvidence? rules file event handler :: found, ?_, ?_⟩
    · rw [List.mapM_cons]
      dsimp only at hname ⊢
      rw [hname, hfound]
      rfl
    · -- The first handler is reported or silent, the others are by the induction.
      cases he : handlerEvidence? rules file event handler with
      | none =>
        refine .silent (fun e hreport => ?_) hreports
        rw [(reports_iff hname).mp hreport] at he
        cases he
      | some e => exact .reported ((reports_iff hname).mpr he) hreports

end Evidence

end Hooks

/-- The shape of a hook configuration does not matter. A plan is spelled by the configuration that
maps each event to the list of its handlers, and every configuration that spells the plan has the
same evidence. If the names of the events can be written, this is, in order, one piece for each
handler that is of type `command` and has a command that is not blank and has a class. -/
theorem hook_shapes_agree (rules : RuleTables) (file : Text) (p : Hooks.Plan) :
    Hooks.Spells p.flat p ∧
    (∀ config, Hooks.Spells config p →
      Hooks.evidence rules file config = Hooks.evidence rules file p.flat) ∧
    ((∀ x ∈ p.handlers, ∃ t, x.1.shown = .ok t) →
      ∃ es, Hooks.evidence rules file p.flat = .ok es ∧
        Hooks.ReportsAll rules file p.handlers es) := by
  have hflat := p.spells_flat
  refine ⟨hflat, fun config h => ?_, fun hnames => ?_⟩
  · unfold Hooks.evidence
    rw [h.handlers_eq, hflat.handlers_eq]
  · obtain ⟨found, hfound, hreports⟩ := Hooks.exists_reportsAll rules file hnames
    refine ⟨_, ?_, hreports⟩
    unfold Hooks.evidence
    rw [hflat.handlers_eq]
    exact Attempt.bind_eq_ok_iff.mpr ⟨found, hfound, rfl⟩

namespace Hooks

/-- A handler that runs a command. -/
def commandHandler (c : Text) : Handler :=
  [(.text "type", .text "command"), (.text "command", .text c)]

/-- A handler that asks. -/
def promptHandler : Handler := [(.text "type", .text "prompt")]

/-- Two events, the first with a handler that runs a command and one that does not. -/
def samplePlan : Plan where
  events := [(.text "Stop", [commandHandler "pip install x", promptHandler]),
    (.text "Start", [commandHandler "node x"])]
  names := by decide
  bare := by
    simp only [List.forall_mem_cons, List.not_mem_nil, false_implies, implies_true, and_true]
    exact ⟨⟨rfl, rfl⟩, rfl⟩

/-- The same in a mapping of its own: the first event with a group and a handler in place of a
group, the second one with a handler in place of a list, and other values in between. -/
def sampleConfig : Value :=
  .map [(.text "description", .null), (.text "hooks", .map [
    (.text "Stop", .list [.null,
      .map [(.text "matcher", .text "Bash"),
        (.text "hooks", .list [.map (commandHandler "pip install x"), .bool true])],
      .map [(.text "hooks", .map promptHandler)]]),
    (.text "Version", .int 2),
    (.text "Start", .map (commandHandler "node x"))])]

/-- The sample configuration spells the sample plan. -/
theorem spells_sample : Spells sampleConfig samplePlan :=
  have hstop : SpellsEntries _ [commandHandler "pip install x", promptHandler] :=
    .cons (.junk rfl) (.cons (.group rfl rfl rfl (.handler rfl (.junk rfl .nil)))
      (.cons (.lone rfl rfl rfl (by simp [promptHandler])) .nil))
  .wrapped rfl rfl rfl (.event (.list rfl hstop)
    (.junk rfl rfl (.event (.object rfl (.handler rfl rfl)) .nil)))

end Hooks

/-- A configuration with all shapes at once has the evidence of the plan that it spells. -/
theorem hook_shapes_agree_mixed :
    Hooks.evidence Bundled.tables "hooks.json" Hooks.sampleConfig =
      Hooks.evidence Bundled.tables "hooks.json" Hooks.samplePlan.flat ∧
    ∃ es, Hooks.evidence Bundled.tables "hooks.json" Hooks.samplePlan.flat = .ok es ∧
      Hooks.ReportsAll Bundled.tables "hooks.json" Hooks.samplePlan.handlers es := by
  have hnames : ∀ x ∈ Hooks.samplePlan.handlers, ∃ t, x.1.shown = .ok t := by
    simp [Hooks.Plan.handlers, Hooks.samplePlan]
  exact ⟨(hook_shapes_agree _ _ _).2.1 _ Hooks.spells_sample,
    (hook_shapes_agree _ _ _).2.2 hnames⟩

end SurfaceAudit
