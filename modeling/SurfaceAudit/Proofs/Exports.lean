import SurfaceAudit.Declaration
import SurfaceAudit.Proofs.Merging
import SurfaceAudit.Proofs.SoundRules
import SurfaceAudit.Script.Evidence

/-!
# What an export tells about the rules

An export of a store shows the rules for commands with their priorities, signals, patterns and
impacts, and the tables of programs, script files and tools. So two stores with the same export
treat programs, script files and tools alike, and their rules for commands are the same but for the
flags of the patterns, which are not shown (`export_determines_tables`). The table of imports is not
shown either: imports are treated alike exactly if the entry of their language is the same.
-/

namespace SurfaceAudit

/-- What is in the first of two lists that match has a partner in the second. -/
theorem exists_partner {α β : Type} {R : α → β → Prop} {xs : List α} {ys : List β}
    (h : List.Forall₂ R xs ys) {x : α} (hx : x ∈ xs) : ∃ y ∈ ys, R x y := by
  induction h with
  | nil => cases hx
  | cons hr _ ih =>
    rcases List.mem_cons.mp hx with rfl | hx
    · exact ⟨_, List.mem_cons_self, hr⟩
    · obtain ⟨y, hy, hr⟩ := ih hx
      exact ⟨y, List.mem_cons_of_mem _ hy, hr⟩

namespace Value

/-- Two values are the same if the order of the entries of mappings does not count. -/
inductive Same : Value → Value → Prop where
  /-- They are the same in order, too. -/
  | refl (v : Value) : Same v v
  /-- Two sequences have the same elements in order. -/
  | list {vs ws : List Value} (h : List.Forall₂ Same vs ws) : Same (.list vs) (.list ws)
  /-- Two mappings have the same keys with the same values, in some order. -/
  | map {es fs gs : List (Value × Value)} (hp : es.Perm gs) (hk : gs.map (·.1) = fs.map (·.1))
    (hv : List.Forall₂ Same (gs.map (·.2)) (fs.map (·.2))) : Same (.map es) (.map fs)

/-- What stands under a key that is there once is found. -/
theorem KeysOnce.lookup_of_mem {es : List (Value × Value)} (h : KeysOnce es) {name : Text}
    {v : Value} (hv : (.text name, v) ∈ es) : lookup es name = some v := by
  induction es with
  | nil => cases hv
  | cons e r ih =>
    obtain ⟨k, u⟩ := e
    rw [lookup_cons]
    rcases List.mem_cons.mp hv with he | hr
    · cases he
      rw [if_pos (isText_iff.mpr rfl)]
    · split
      · rename_i hk
        cases isText_iff.mp hk
        cases (ih h.tail hr).symm.trans h.lookup_tail
      · exact ih h.tail hr

/-- What is found under a key stands there. -/
theorem mem_of_lookup {es : List (Value × Value)} {name : Text} {v : Value}
    (h : lookup es name = some v) : (.text name, v) ∈ es := by
  obtain ⟨e, he, rfl⟩ := Option.map_eq_some_iff.mp h
  rw [← eq_of_find? he]
  exact List.mem_of_find?_eq_some he

namespace Same

variable {es fs : List (Value × Value)}

/-- The entries of mappings that are the same are so one by one, in some order. -/
theorem exists_perm (h : Same (.map es) (.map fs)) :
    ∃ gs, es.Perm gs ∧ List.Forall₂ (fun e f => e.1 = f.1 ∧ Same e.2 f.2) gs fs := by
  -- The keys and the values are compared in two lists; here they are put together again.
  have hpairs {gs fs : List (Value × Value)} (hk : gs.map (·.1) = fs.map (·.1))
      (hv : List.Forall₂ Same (gs.map (·.2)) (fs.map (·.2))) :
      List.Forall₂ (fun e f => e.1 = f.1 ∧ Same e.2 f.2) gs fs := by
    induction gs generalizing fs with
    | nil =>
      rw [List.map_eq_nil_iff.mp hk.symm]
      exact .nil
    | cons e r ih =>
      obtain ⟨f, q, rfl⟩ : ∃ f q, fs = f :: q := by
        cases fs with
        | nil => cases hk
        | cons f q => exact ⟨f, q, rfl⟩
      obtain ⟨he, hr⟩ := List.cons.inj hk
      obtain ⟨hf, hq⟩ := List.forall₂_cons.mp hv
      exact .cons ⟨he, hf⟩ (ih hr hq)
  cases h with
  | refl => exact ⟨es, .refl _, List.forall₂_same.mpr fun e _ => ⟨rfl, .refl _⟩⟩
  | map hp hk hv => exact ⟨_, hp, hpairs hk hv⟩

/-- What stands in a mapping under a key stands in the other one under it, too. -/
theorem exists_mem_right (h : Same (.map es) (.map fs)) {k v : Value} (hk : (k, v) ∈ es) :
    ∃ w, (k, w) ∈ fs ∧ Same v w := by
  obtain ⟨gs, hp, hgs⟩ := h.exists_perm
  obtain ⟨⟨_, w⟩, hw, rfl, hvw⟩ := exists_partner hgs (hp.mem_iff.mp hk)
  exact ⟨w, hw, hvw⟩

/-- What stands in the other mapping under a key stands in the first under it, too. -/
theorem exists_mem_left (h : Same (.map es) (.map fs)) {k w : Value} (hk : (k, w) ∈ fs) :
    ∃ v, (k, v) ∈ es ∧ Same v w := by
  obtain ⟨gs, hp, hgs⟩ := h.exists_perm
  obtain ⟨⟨_, v⟩, hv, rfl, hvw⟩ := exists_partner hgs.flip hk
  exact ⟨v, hp.mem_iff.mpr hv, hvw⟩

/-- The fields of mappings that are the same are the same, if each key is there once. -/
theorem field (h : Same (.map es) (.map fs)) (hfs : KeysOnce fs) (name : Text) {v w : Value}
    (hv : lookup es name = some v) (hw : lookup fs name = some w) : Same v w := by
  obtain ⟨u, hu, hvu⟩ := h.exists_mem_right (mem_of_lookup hv)
  have hlookup : lookup fs name = some u := hfs.lookup_of_mem hu
  cases hw.symm.trans hlookup
  exact hvu

/-- Sequences that are the same are so element by element. -/
theorem elements {vs ws : List Value} (h : Same (.list vs) (.list ws)) :
    List.Forall₂ Same vs ws := by
  cases h with
  | refl => exact List.forall₂_same.mpr fun v _ => .refl v
  | list h => exact h

/-- Texts that are the same as values are equal. -/
theorem eq_text {s t : Text} (h : Same (.text s) (.text t)) : s = t := by
  cases h
  rfl

/-- Integers that are the same as values are equal. -/
theorem eq_int {m n : Int} (h : Same (.int m) (.int n)) : m = n := by
  cases h
  rfl

end Same

end Value

namespace SignalTable

/-- Tables that are shown as the same mapping have the same entries, as far as these are shown. -/
theorem get?_eq_of_same {α : Type} {f : SignalRule → Value} {g : SignalRule → α}
    (hfg : ∀ r r', Value.Same (f r) (f r') → g r = g r') {t t' : SignalTable}
    (ht : (t.map (·.1)).Nodup) (ht' : (t'.map (·.1)).Nodup)
    (h : Value.Same (RuleStore.tableValue f t) (RuleStore.tableValue f t')) (name : Text) :
    (t.get? name).map g = (t'.get? name).map g := by
  have hentry {u : SignalTable} {v : Value}
      (hv : (Value.text name, v) ∈ u.map fun e => (Value.text e.1, f e.2)) :
      ∃ rule, (name, rule) ∈ u ∧ v = f rule := by
    obtain ⟨⟨other, rule⟩, hmem, heq⟩ := List.mem_map.mp hv
    cases heq
    exact ⟨rule, hmem, rfl⟩
  have hshown {u : SignalTable} {rule : SignalRule} (hr : (name, rule) ∈ u) :
      (Value.text name, f rule) ∈ u.map fun e => (Value.text e.1, f e.2) :=
    List.mem_map.mpr ⟨(name, rule), hr, rfl⟩
  -- A key is in both tables or in neither, because the entries of one correspond to those of the
  -- other.
  cases hr : t.get? name with
  | some rule =>
    obtain ⟨w, hw, hsame⟩ := h.exists_mem_right (hshown ((get?_eq_some_iff ht).mp hr))
    obtain ⟨rule', hr', rfl⟩ := hentry hw
    rw [(get?_eq_some_iff ht').mpr hr', Option.map_some, Option.map_some, hfg _ _ hsame]
  | none =>
    cases hr' : t'.get? name with
    | none => rfl
    | some rule' =>
      obtain ⟨v, hv, -⟩ := h.exists_mem_left (hshown ((get?_eq_some_iff ht').mp hr'))
      obtain ⟨rule, hmem, -⟩ := hentry hv
      rw [(get?_eq_some_iff ht).mpr hmem] at hr
      cases hr

end SignalTable

/-- Two rules for commands are shown alike: they are the same but for the expression. -/
structure CommandRule.ShownAlike (r r' : CommandRule) : Prop where
  /-- The priority. -/
  priority : r.priority = r'.priority
  /-- The signal. -/
  signal : r.signal = r'.signal
  /-- The text of the pattern. -/
  pattern : r.pattern = r'.pattern
  /-- The impact. -/
  template : r.template = r'.template

namespace RuleStore

/-- An entry of a table is told by what is shown of it. -/
theorem eq_of_same_signalValue {r r' : SignalRule}
    (h : Value.Same (signalValue r) (signalValue r')) : r = r' := by
  unfold signalValue at h
  have honce : Value.KeysOnce [(Value.text "signal", Value.text r'.signal),
      (.text "impact", .text r'.template.name)] := by
    change (["signal", "impact"] : List Text).Nodup
    decide
  have hsignal := (h.field honce "signal" rfl rfl).eq_text
  have htemplate := (h.field honce "impact" rfl rfl).eq_text
  cases r
  cases r'
  cases hsignal
  cases Template.name_injective htemplate
  rfl

/-- Rules for commands that are shown as the same mapping are shown alike. -/
theorem shownAlike_of_same {r r' : CommandRule}
    (h : Value.Same (commandValue r) (commandValue r')) : r.ShownAlike r' := by
  unfold commandValue at h
  have honce : Value.KeysOnce [(Value.text "priority", Value.int r'.priority),
      (.text "signal", .text r'.signal), (.text "pattern", .text r'.pattern),
      (.text "impact", .text r'.template.name)] := by
    change (["priority", "signal", "pattern", "impact"] : List Text).Nodup
    decide
  exact
    { priority := (h.field honce "priority" rfl rfl).eq_int
      signal := (h.field honce "signal" rfl rfl).eq_text
      pattern := (h.field honce "pattern" rfl rfl).eq_text
      template := Template.name_injective (h.field honce "impact" rfl rfl).eq_text }

/-- What two stores with the same export have in common. -/
structure ExportsAlike (s s' : RuleStore) : Prop where
  /-- The rules for commands are shown alike, one by one. -/
  commands : List.Forall₂ CommandRule.ShownAlike s.tables.commands s'.tables.commands
  /-- The programs have the same entries. -/
  binaries : ∀ name, s.tables.binaries.get? name = s'.tables.binaries.get? name
  /-- The script files have the same entries. -/
  scripts : ∀ name, s.tables.scripts.get? name = s'.tables.scripts.get? name
  /-- The tools have the same impacts. -/
  tools : ∀ name, (s.tables.tools.get? name).map (·.template) =
    (s'.tables.tools.get? name).map (·.template)

/-- Sound stores with the same export have all in common that is shown. -/
theorem exportsAlike_of_same {s s' : RuleStore} (hs : s.IsSound) (hs' : s'.IsSound)
    (h : Value.Same s.toValue s'.toValue) : ExportsAlike s s' := by
  unfold toValue at h
  -- The export is a mapping with six keys, each of which is there once, so its parts can be
  -- compared by key.
  have honce {commands binaries scripts tools stats errors : Value} :
      Value.KeysOnce [(.text "command_rules", commands), (.text "binaries", binaries),
        (.text "script_rules", scripts), (.text "restricted_tools", tools), (.text "stats", stats),
        (.text "errors", errors)] := by
    change (["command_rules", "binaries", "script_rules", "restricted_tools", "stats",
      "errors"] : List Text).Nodup
    decide
  have hentries {t t' : SignalTable} (ht : (t.map (·.1)).Nodup) (ht' : (t'.map (·.1)).Nodup)
      (hsame : Value.Same (tableValue signalValue t) (tableValue signalValue t')) (name : Text) :
      t.get? name = t'.get? name := by
    have hrule (r r' : SignalRule) (hr : Value.Same (signalValue r) (signalValue r')) :
        id r = id r' := eq_of_same_signalValue hr
    simpa using SignalTable.get?_eq_of_same hrule ht ht' hsame name
  constructor
  case commands =>
    have hall := (h.field honce "command_rules" rfl rfl).elements
    rw [List.forall₂_map_left_iff, List.forall₂_map_right_iff] at hall
    exact hall.imp fun _ _ => shownAlike_of_same
  case binaries =>
    exact hentries (hs.tables.once .binaries) (hs'.tables.once .binaries)
      (h.field honce "binaries" rfl rfl)
  case scripts =>
    exact hentries (hs.tables.once .scripts) (hs'.tables.once .scripts)
      (h.field honce "script_rules" rfl rfl)
  case tools =>
    intro name
    exact SignalTable.get?_eq_of_same (fun _ _ hr => Template.name_injective hr.eq_text)
      (hs.tables.once .tools) (hs'.tables.once .tools) (h.field honce "restricted_tools" rfl rfl)
      name

/-- The patterns of some rules for commands are parsed under some flags, one by one. -/
def ParsedUnder (flags : List Pattern.Flags) (rules : List CommandRule) : Prop :=
  List.Forall₂ (fun f rule => Pattern.Expr.parse f rule.pattern = .ok rule.expr) flags rules

/-- The rules for commands of a sound store are parsed under some flags. -/
theorem IsSound.exists_parsedUnder {s : RuleStore} (hs : s.IsSound) :
    ∃ flags, ParsedUnder flags s.tables.commands := by
  have hparsed := hs.tables.parsed
  generalize s.tables.commands = rules at hparsed
  induction rules with
  | nil => exact ⟨[], .nil⟩
  | cons rule r ih =>
    obtain ⟨hrule, hr⟩ := List.forall_mem_cons.mp hparsed
    obtain ⟨f, hf⟩ := hrule
    obtain ⟨flags, hflags⟩ := ih hr
    exact ⟨f :: flags, .cons hf hflags⟩

/-- Rules for commands that are shown alike are the same if they are parsed under the same flags. -/
theorem commands_eq_of_parsedUnder {rules rules' : List CommandRule}
    (h : List.Forall₂ CommandRule.ShownAlike rules rules') {flags : List Pattern.Flags}
    (hf : ParsedUnder flags rules) (hf' : ParsedUnder flags rules') : rules = rules' := by
  induction h generalizing flags with
  | nil => rfl
  | @cons rule rule' r r' halike _ ih =>
    cases hf with
    | cons hexpr hr =>
      cases hf' with
      | cons hexpr' hr' =>
        -- The expression is not shown, but it is what the pattern is parsed as under the same
        -- flags.
        rw [halike.pattern] at hexpr
        have hsame : rule.expr = rule'.expr := Except.ok.inj (hexpr.symm.trans hexpr')
        have hrule : rule = rule' := by
          cases rule
          cases rule'
          cases halike.priority
          cases halike.signal
          cases halike.pattern
          cases halike.template
          cases hsame
          rfl
        rw [hrule, ih hr hr']

end RuleStore

/-- A template is told by its impact. -/
theorem Template.impact_injective {a b : Template} (h : a.impact = b.impact) : a = b := by
  cases a <;> cases b <;> first | rfl | cases h

namespace Script

/-- Imports of a language are treated alike exactly if its entry is the same, given a text in which
there is one import. -/
theorem importEvidence_eq_iff {rules rules' : RuleTables} {language : Text}
    {names : Text → List Text} {detail : Text → Text} {text name : Text} {number : Nat}
    (hone : firstSeen names text = [(name, number)]) :
    (∀ file content, importEvidence rules language names detail file content =
        importEvidence rules' language names detail file content) ↔
      rules.imports.get? language = rules'.imports.get? language := by
  constructor
  · intro h
    -- On a text with one import there is evidence exactly if the language has an entry, and the
    -- evidence tells the entry.
    have hat := h [] text
    unfold importEvidence at hat
    rw [hone] at hat
    cases hr : rules.imports.get? language with
    | none =>
      cases hr' : rules'.imports.get? language with
      | none => rfl
      | some r' => simp [hr, hr'] at hat
    | some r =>
      cases hr' : rules'.imports.get? language with
      | none => simp [hr, hr'] at hat
      | some r' =>
        simp only [hr, hr', List.map_cons, List.map_nil, List.cons.injEq, Evidence.mk.injEq,
          true_and, and_true] at hat
        obtain ⟨hsignal, himpact⟩ := hat
        cases r
        cases r'
        cases List.append_cancel_right hsignal
        cases Template.impact_injective himpact
        rfl
  · intro h file content
    unfold importEvidence
    rw [h]

/-- A text with one import of a module. -/
theorem firstSeen_import : firstSeen Python.thirdParty "import x" = [(("x" : Text), 1)] := by
  decide +kernel

/-- A text with one call for a package. -/
theorem firstSeen_require : firstSeen Node.packages "require('x')" = [(("x" : Text), 1)] := by
  decide +kernel

end Script

/-- An export is told by what it shows of the published rules, by the number of the entries for
imports and by the words for the defects. -/
theorem RuleStore.toValue_eq {s s' : RuleStore}
    (hcommands : s.tables.commands.map (fun r => (r.priority, r.signal, r.pattern, r.template)) =
      s'.tables.commands.map (fun r => (r.priority, r.signal, r.pattern, r.template)))
    (hbinaries : s.tables.binaries = s'.tables.binaries)
    (hscripts : s.tables.scripts = s'.tables.scripts) (htools : s.tables.tools = s'.tables.tools)
    (himports : s.tables.imports.length = s'.tables.imports.length)
    (hdefects : s.defects.map RuleDefect.message = s'.defects.map RuleDefect.message) :
    s.toValue = s'.toValue := by
  have hrules (s : RuleStore) : s.tables.commands.map commandValue =
      (s.tables.commands.map fun r => (r.priority, r.signal, r.pattern, r.template)).map fun r =>
        .map [(.text "priority", .int r.1), (.text "signal", .text r.2.1),
          (.text "pattern", .text r.2.2.1), (.text "impact", .text r.2.2.2.name)] := by
    rw [List.map_map]
    rfl
  have hwords (s : RuleStore) : (s.defects.map fun d => Value.text d.message) =
      (s.defects.map RuleDefect.message).map Value.text := by
    rw [List.map_map]
    rfl
  -- The statistics are counts of what is shown, apart from that of the imports, which are not
  -- shown.
  have hstatistics : s.statistics = s'.statistics := by
    have hnumber := congrArg List.length hcommands
    have hnoted := congrArg List.length hdefects
    rw [List.length_map, List.length_map] at hnumber hnoted
    rw [statistics, statistics, hnumber, hbinaries, hscripts, htools, himports, hnoted]
  unfold toValue
  rw [hrules, hrules, hwords, hwords, hcommands, hbinaries, hscripts, htools, hstatistics, hdefects]

/-- Two stores with the same export, which may have been loaded from any directories, treat
programs, script files and tools alike. Their rules for commands have one by one the same priority,
signal, pattern and impact, and are parsed from their patterns under some flags, which the export
does not show: where they are the same, commands are classified alike. Nor does the export show the
table of imports: the imports of a language are treated alike exactly if its entry there is the
same. -/
theorem export_determines_tables (s s' : RuleStore) (hs : s.IsReached) (hs' : s'.IsReached)
    (h : Value.Same s.toValue s'.toValue) :
    (∀ name, s.tables.classifyBinary name = s'.tables.classifyBinary name) ∧
    (∀ path, Script.fileEvidence? s.tables path = Script.fileEvidence? s'.tables path) ∧
    (∀ file allowed, Declaration.toolsEvidence s.tables file allowed =
      Declaration.toolsEvidence s'.tables file allowed) ∧
    List.Forall₂ CommandRule.ShownAlike s.tables.commands s'.tables.commands ∧
    (∃ flags, RuleStore.ParsedUnder flags s.tables.commands) ∧
    (∃ flags, RuleStore.ParsedUnder flags s'.tables.commands) ∧
    (∀ flags, RuleStore.ParsedUnder flags s.tables.commands →
      RuleStore.ParsedUnder flags s'.tables.commands →
        ∀ command, s.tables.classifyCommand command = s'.tables.classifyCommand command) ∧
    ((∀ file content, Script.pythonEvidence s.tables file content =
        Script.pythonEvidence s'.tables file content) ↔
      s.tables.imports.get? "python" = s'.tables.imports.get? "python") ∧
    ((∀ file content, Script.nodeEvidence s.tables file content =
        Script.nodeEvidence s'.tables file content) ↔
      s.tables.imports.get? "node" = s'.tables.imports.get? "node") := by
  have halike := RuleStore.exportsAlike_of_same hs.isSound hs'.isSound h
  refine ⟨?_, ?_, ?_, halike.commands, hs.isSound.exists_parsedUnder,
    hs'.isSound.exists_parsedUnder, ?_, ?_, ?_⟩
  · intro name
    rw [RuleTables.classifyBinary, RuleTables.classifyBinary, halike.binaries]
  · intro path
    rw [Script.fileEvidence?, Script.fileEvidence?, halike.scripts]
  · intro file allowed
    have htool (tool : Text) : Declaration.toolEvidence? s.tables file tool =
        Declaration.toolEvidence? s'.tables file tool := by
      -- The evidence of a tool depends on its entry through the impact alone.
      have hsplit (rules : RuleTables) : Declaration.toolEvidence? rules file tool =
          ((rules.tools.get? tool).map (·.template)).map fun template =>
            ⟨.frontmatter, file, none, ("allowed-tools: " : Text) ++ tool,
              ("Skill requires \"" : Text) ++ tool ++
                "\" tool which needs local environment access",
              template.impact⟩ := by
        rw [Option.map_map]
        rfl
      rw [hsplit, hsplit, halike.tools]
    rw [Declaration.toolsEvidence, Declaration.toolsEvidence, funext htool]
  · intro flags hf hf' command
    rw [RuleTables.classifyCommand, RuleTables.classifyCommand,
      RuleStore.commands_eq_of_parsedUnder halike.commands hf hf']
  · exact Script.importEvidence_eq_iff Script.firstSeen_import
  · exact Script.importEvidence_eq_iff Script.firstSeen_require

/-- Two directories of rules, which differ in the flags of a pattern and in the prefix for imports.
-/
def twoDirectories : Disk where
  root := .directory
    [("r", .directory [("a.yaml", .file "\x7bcommand_rules: [
\x7bpriority: 1, signal: a, pattern: a, impact: all-ok, pattern_flags: [IGNORECASE]\x7d], import_rules:
\x7bpython: \x7bsignal_prefix: x, impact: all-ok\x7d\x7d\x7d".toUTF8.toList)]),
    ("s", .directory [("a.yaml", .file "\x7bcommand_rules: [
\x7bpriority: 1, signal: a, pattern: a, impact: all-ok\x7d], import_rules:
\x7bpython: \x7bsignal_prefix: y, impact: all-ok\x7d\x7d\x7d".toUTF8.toList)])]
  current := []

/-- The store that one of the directories gives. -/
def storeOf (directory : Text) : RuleStore := (RuleStore.load { directory } twoDirectories).2

/-- The store of a directory is reached by loading it. -/
theorem isReached_storeOf (directory : Text) : (storeOf directory).IsReached :=
  .load (.new directory) twoDirectories

/-- A store has the rule for commands that both directories show, an entry for imports with a
prefix, and nothing else, and the command `A` is found to be something. -/
def HasOnly (s : RuleStore) (imports : Text) (found : Option Classification) : Prop :=
  s.tables.commands.map (fun r => (r.priority, r.signal, r.pattern, r.template)) =
      [((1 : Int), ("a" : Text), ("a" : Text), Template.allOk)] ∧
    s.tables.binaries = [] ∧ s.tables.scripts = [] ∧ s.tables.tools = [] ∧
    s.tables.imports = [(("python" : Text), SignalRule.mk imports .allOk)] ∧
    s.defects.map RuleDefect.message = [] ∧ s.tables.classifyCommand "A" = found

instance (s : RuleStore) (imports : Text) (found : Option Classification) :
    Decidable (HasOnly s imports found) :=
  inferInstanceAs (Decidable (_ ∧ _))

/-- The pattern of the first directory ignores case. -/
theorem hasOnly_storeOf_r : HasOnly (storeOf "/r") "x" (some ⟨"a", .none⟩) := by
  decide +kernel

/-- The pattern of the second directory does not. -/
theorem hasOnly_storeOf_s : HasOnly (storeOf "/s") "y" none := by
  decide +kernel

/-- The exports of the two directories are equal. -/
theorem toValue_storeOf : (storeOf "/r").toValue = (storeOf "/s").toValue := by
  obtain ⟨hcommands, hbinaries, hscripts, htools, himports, hdefects, -⟩ := hasOnly_storeOf_r
  obtain ⟨hcommands', hbinaries', hscripts', htools', himports', hdefects', -⟩ :=
    hasOnly_storeOf_s
  refine RuleStore.toValue_eq (hcommands.trans hcommands'.symm) (hbinaries.trans hbinaries'.symm)
    (hscripts.trans hscripts'.symm) (htools.trans htools'.symm) ?_
    (hdefects.trans hdefects'.symm)
  rw [himports, himports']
  rfl

/-- The import of a module is called by the prefix and the module. -/
theorem signals_pythonEvidence {s : RuleStore} {imports : Text} {found : Option Classification}
    (h : HasOnly s imports found) (file : Text) :
    (Script.pythonEvidence s.tables file "import x").map (·.signal) = [imports ++ "x"] := by
  obtain ⟨-, -, -, -, himports, -⟩ := h
  unfold Script.pythonEvidence Script.importEvidence
  rw [himports, Script.firstSeen_import]
  rfl

/-- Imports are not treated alike under the two directories. -/
theorem pythonEvidence_storeOf_ne : Script.pythonEvidence (storeOf "/r").tables "f.py" "import x" ≠
    Script.pythonEvidence (storeOf "/s").tables "f.py" "import x" := by
  intro h
  have hsignals := congrArg (List.map (·.signal)) h
  rw [signals_pythonEvidence hasOnly_storeOf_r,
    signals_pythonEvidence hasOnly_storeOf_s] at hsignals
  exact absurd hsignals (by decide)

/-- The exports of the two directories are equal, so every program is treated alike, and the rules
for commands are shown alike. The entries for imports are not the same, since the import of some
module is not treated alike. -/
theorem export_of_two_directories : (storeOf "/r").toValue = (storeOf "/s").toValue ∧
    (∀ name, (storeOf "/r").tables.classifyBinary name =
      (storeOf "/s").tables.classifyBinary name) ∧
    List.Forall₂ CommandRule.ShownAlike (storeOf "/r").tables.commands
      (storeOf "/s").tables.commands ∧
    (storeOf "/r").tables.imports.get? "python" ≠ (storeOf "/s").tables.imports.get? "python" := by
  have hsame : Value.Same (storeOf "/r").toValue (storeOf "/s").toValue := by
    rw [toValue_storeOf]
    exact .refl _
  obtain ⟨hbinaries, -, -, hcommands, -, -, -, hpython, -⟩ := export_determines_tables
    (storeOf "/r") (storeOf "/s") (isReached_storeOf "/r") (isReached_storeOf "/s") hsame
  exact ⟨toValue_storeOf, hbinaries, hcommands,
    fun h => pythonEvidence_storeOf_ne (hpython.mpr h "f.py" "import x")⟩

/-- Two stores that were loaded from directories have equal exports, and yet they differ on the
command `A`, in which only a pattern that ignores case is found, and on a script with an import, for
which the prefixes differ. -/
theorem export_hides_flags_and_imports :
    (storeOf "/r").IsReached ∧ (storeOf "/s").IsReached ∧
      (storeOf "/r").toValue = (storeOf "/s").toValue ∧
      (storeOf "/r").tables.classifyCommand "A" ≠ (storeOf "/s").tables.classifyCommand "A" ∧
      Script.pythonEvidence (storeOf "/r").tables "f.py" "import x" ≠
        Script.pythonEvidence (storeOf "/s").tables "f.py" "import x" := by
  obtain ⟨-, -, -, -, -, -, hfound⟩ := hasOnly_storeOf_r
  obtain ⟨-, -, -, -, -, -, hfound'⟩ := hasOnly_storeOf_s
  refine ⟨isReached_storeOf "/r", isReached_storeOf "/s", toValue_storeOf, ?_,
    pythonEvidence_storeOf_ne⟩
  rw [hfound, hfound']
  simp

end SurfaceAudit
