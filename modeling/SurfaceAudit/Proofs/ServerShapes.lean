import SurfaceAudit.Proofs.Exports
import SurfaceAudit.Proofs.Tolerance

/-!
# The shapes of server configurations

A plan names servers in order, each with a value (`Servers.Plan`). A configuration may spell it as a
mapping, or in a mapping of its own besides other keys, and a command without arguments may stand by
itself or in a mapping (`Servers.Spells`). Whatever the shape, the evidence is that of the plan. If
all values are values of JSON it is, in order, one piece for each server whose command is a program
that is known, and neither the arguments nor what else stands among the servers bears on which
pieces there are (`server_shapes_agree`).
-/

namespace SurfaceAudit

/-- Evidence without its detail. -/
def Evidence.undetailed (e : Evidence) : Evidence := { e with detail := [] }

namespace Servers

/-- Servers by name, in order. None has the name under which servers stand in a configuration. -/
structure Plan where
  /-- The servers, each with its name. -/
  servers : List (Text × Value)
  /-- What the servers are called. -/
  names : ∀ x ∈ servers, x.1 ≠ "mcpServers"

/-- A server as an entry of a mapping. -/
def entry (x : Text × Value) : Value × Value := (.text x.1, x.2)

namespace Plan

/-- The servers as entries of a mapping. -/
def entries (p : Plan) : List (Value × Value) := p.servers.map entry

/-- The configuration that maps each name to its server. -/
def bare (p : Plan) : Value := .map p.entries

/-- The plan with some of its servers. -/
def filter (p : Plan) (keep : Text × Value → Bool) : Plan where
  servers := p.servers.filter keep
  names x hx := p.names x (List.mem_of_mem_filter hx)

end Plan

/-- The first value stands for a server as the second one does. -/
inductive SpellsServer : Value → Value → Prop where
  /-- It is the same. -/
  | same (v : Value) : SpellsServer v v
  /-- It is a command by itself in place of a mapping. -/
  | alone (c : Text) : SpellsServer (.text c) (.map [(.text "command", .text c)])
  /-- It is a mapping in place of a command by itself. -/
  | inside (c : Text) : SpellsServer (.map [(.text "command", .text c)]) (.text c)

/-- Entries stand for servers, one by one. -/
def SpellsServers (es : List (Value × Value)) (servers : List (Text × Value)) : Prop :=
  List.Forall₂ (fun e x => e.1 = .text x.1 ∧ SpellsServer e.2 x.2) es servers

/-- A configuration spells a plan. -/
inductive Spells : Value → Plan → Prop where
  /-- The configuration is the mapping of servers. -/
  | bare {config : Value} {es : List (Value × Value)} {p : Plan}
      (entries : config.entries? = some es) (servers : SpellsServers es p.servers) :
      Spells config p
  /-- The mapping of servers is in the configuration, besides whatever else. -/
  | wrapped {config inner : Value} {top es : List (Value × Value)} {p : Plan}
      (entries : config.entries? = some top) (key : Value.lookup top "mcpServers" = some inner)
      (inner_entries : inner.entries? = some es) (servers : SpellsServers es p.servers) :
      Spells config p

/-- A server has a command with arguments: the command alone, or both in a mapping. -/
inductive Starts : Value → Text → Value → Prop where
  /-- The command alone has no arguments. -/
  | alone (c : Text) : Starts (.text c) c .null
  /-- The command stands under its key, and so do the arguments if there are any. -/
  | inside {server : Value} {es : List (Value × Value)} {c : Text}
      (entries : server.entries? = some es) (command : Value.field es "command" = .text c) :
      Starts server c (Value.field es "args")

/-- The command of a server is a program that the rules have an entry for. -/
def IsKnown (rules : RuleTables) (server : Value) : Prop :=
  ∃ c args rule, Starts server c args ∧ c ≠ [] ∧ rules.binaries.get? c = some rule

/-- Two servers have the same command, or none has one. -/
def SameCommand (v w : Value) : Prop := ∀ c, (∃ args, Starts v c args) ↔ ∃ args, Starts w c args

/-- A server has the same command as itself. -/
theorem SameCommand.refl (v : Value) : SameCommand v v := fun _ => Iff.rfl

/-- Which of two servers comes first makes no difference to whether their commands are the same. -/
theorem SameCommand.symm {v w : Value} (h : SameCommand v w) : SameCommand w v :=
  fun c => (h c).symm

/-- Evidence reports a server: its command is known, and the evidence has the signal and the impact
of the entry. -/
inductive Reports (rules : RuleTables) (file : Text) : Text × Value → Evidence → Prop where
  /-- The detail shows the line that starts the server. -/
  | intro {name c line : Text} {server args : Value} {rule : SignalRule}
      (starts : Starts server c args) (nonempty : c ≠ [])
      (entry : rules.binaries.get? c = some rule) (launch : launchLine c args = .ok line) :
      Reports rules file (name, server) ⟨.mcpServer, file, none, rule.signal,
        ("MCP server '" : Text) ++ name ++ "' launches with '" ++ line.take 120 ++ "'",
        rule.template.impact⟩

/-- Evidence reports servers: in order, one piece for each server whose command is known. -/
inductive ReportsAll (rules : RuleTables) (file : Text) :
    List (Text × Value) → List Evidence → Prop where
  /-- Nothing. -/
  | nil : ReportsAll rules file [] []
  /-- A server whose command is known. -/
  | reported {x : Text × Value} {e : Evidence} {xs : List (Text × Value)} {es : List Evidence}
      (report : Reports rules file x e) (rest : ReportsAll rules file xs es) :
      ReportsAll rules file (x :: xs) (e :: es)
  /-- Any other server. -/
  | silent {x : Text × Value} {xs : List (Text × Value)} {es : List Evidence}
      (silent : ¬IsKnown rules x.2) (rest : ReportsAll rules file xs es) :
      ReportsAll rules file (x :: xs) es

/-! ## The program of a server -/

/-- The program that is found is the command of the server, unless it is empty. -/
theorem program?_eq_some_iff {server args : Value} {c : Text} :
    program? server = some (c, args) ↔ Starts server c args ∧ c ≠ [] := by
  constructor
  · intro h
    unfold program? at h
    split at h
    · rename_i d
      split at h
      · cases h
      · rename_i hne
        cases h
        exact ⟨.alone c, fun hnil => hne (List.isEmpty_iff.mpr hnil)⟩
    · split at h
      · cases h
      · rename_i es he
        split at h
        · rename_i d hcommand
          split at h
          · cases h
          · rename_i hne
            cases h
            exact ⟨.inside he hcommand, fun hnil => hne (List.isEmpty_iff.mpr hnil)⟩
        · cases h
  · rintro ⟨h, hne⟩
    have hempty : ¬c.isEmpty = true := fun h => hne (List.isEmpty_iff.mp h)
    cases h with
    | alone => rw [program?, if_neg hempty]
    | inside entries command =>
      unfold program?
      split
      · cases entries
      · rw [entries]
        dsimp only
        rw [command]
        dsimp only
        rw [if_neg hempty]

/-- A server has one command. -/
theorem Starts.unique {server args args' : Value} {c c' : Text} (h : Starts server c args)
    (h' : Starts server c' args') : c = c' ∧ args = args' := by
  cases h with
  | alone =>
    cases h' with
    | alone => exact ⟨rfl, rfl⟩
    | inside entries' => cases entries'
  | inside entries command =>
    cases h' with
    | alone => cases entries
    | inside entries' command' =>
      cases entries.symm.trans entries'
      cases command.symm.trans command'
      exact ⟨rfl, rfl⟩

/-- Servers that are spelled alike have the same program. -/
theorem SpellsServer.program?_eq {v w : Value} (h : SpellsServer v w) :
    program? v = program? w := by
  cases h with
  | same => rfl
  | alone c => rfl
  | inside c => rfl

/-! ## Servers one by one -/

section Evidence

variable {rules : RuleTables} {file : Text}

/-- The evidence of entries. -/
def evidenceOf (rules : RuleTables) (file : Text) (es : List (Value × Value)) :
    Attempt (List Evidence) := do
  let found ← es.mapM fun (name, server) => serverEvidence? rules file name server
  return found.filterMap id

/-- The evidence of the first entry comes before that of the others. -/
theorem evidenceOf_cons (e : Value × Value) (es : List (Value × Value)) :
    evidenceOf rules file (e :: es) = (serverEvidence? rules file e.1 e.2 >>= fun found =>
      (evidenceOf rules file es).map (found.toList ++ ·)) := by
  obtain ⟨name, server⟩ := e
  unfold evidenceOf
  rw [List.mapM_cons]
  dsimp only
  -- The first outcome that is an error is that of the whole.
  cases serverEvidence? rules file name server with
  | error f => rfl
  | ok found =>
    cases es.mapM fun (name, server) => serverEvidence? rules file name server with
    | error f => rfl
    | ok r => cases found <;> rfl

/-- Servers that are spelled alike have the same evidence. -/
theorem SpellsServer.serverEvidence?_eq {v w : Value} (h : SpellsServer v w) (name : Value) :
    serverEvidence? rules file name v = serverEvidence? rules file name w := by
  unfold serverEvidence?
  rw [h.program?_eq]

/-- Entries that stand for servers have their evidence. -/
theorem SpellsServers.evidenceOf_eq {es : List (Value × Value)} {p : Plan}
    (h : SpellsServers es p.servers) :
    evidenceOf rules file es = evidenceOf rules file p.entries := by
  unfold Plan.entries
  unfold SpellsServers at h
  generalize p.servers = xs at h
  induction h with
  | nil => rfl
  | @cons e x es xs hex _ ih =>
    obtain ⟨hname, hserver⟩ := hex
    rw [List.map_cons, entry, evidenceOf_cons, evidenceOf_cons, ih, hname,
      hserver.serverEvidence?_eq]

/-- A server whose command is not known has no evidence. -/
theorem serverEvidence?_eq_none {server : Value} (h : ¬IsKnown rules server) (name : Value) :
    serverEvidence? rules file name server = .ok none := by
  unfold serverEvidence?
  -- There is no program, or it has no entry.
  cases hp : program? server with
  | none => rfl
  | some found =>
    obtain ⟨c, args⟩ := found
    obtain ⟨hstarts, hne⟩ := program?_eq_some_iff.mp hp
    have hget : rules.binaries.get? c = none := by
      by_contra hget
      obtain ⟨rule, hrule⟩ := Option.ne_none_iff_exists'.mp hget
      exact h ⟨c, args, rule, hstarts, hne, hrule⟩
    dsimp only
    rw [RuleTables.classifyBinary, hget]
    rfl

/-- The line that starts a server of JSON can be written. -/
theorem Starts.exists_launchLine {server args : Value} {c : Text} (h : Starts server c args)
    (hjson : Json.IsJson server) : ∃ line, launchLine c args = .ok line := by
  have hargs : Json.IsJson args := by
    cases h with
    | alone => exact .null
    | inside entries => exact hjson.field entries "args"
  refine (writesIff_launchLine c args).ok_iff.mpr fun v hv => ?_
  exact Value.isShort_of_isJson (hargs.of_mem_elementsOrNone v hv)

/-- A server of JSON whose command is known has evidence that reports it. -/
theorem exists_reports (file name : Text) {server : Value} (hjson : Json.IsJson server)
    (h : IsKnown rules server) :
    ∃ e, serverEvidence? rules file (.text name) server = .ok (some e) ∧
      Reports rules file (name, server) e := by
  obtain ⟨c, args, rule, hstarts, hne, hentry⟩ := h
  obtain ⟨line, hline⟩ := hstarts.exists_launchLine hjson
  refine ⟨_, ?_, .intro hstarts hne hentry hline⟩
  unfold serverEvidence?
  rw [program?_eq_some_iff.mpr ⟨hstarts, hne⟩]
  dsimp only
  rw [RuleTables.classifyBinary, hentry, hline]
  rfl

/-- The evidence of servers of JSON reports them. -/
theorem exists_reportsAll (rules : RuleTables) (file : Text) {xs : List (Text × Value)}
    (h : ∀ x ∈ xs, Json.IsJson x.2) :
    ∃ es, evidenceOf rules file (xs.map entry) = .ok es ∧ ReportsAll rules file xs es := by
  induction xs with
  | nil => exact ⟨[], rfl, .nil⟩
  | cons x xs ih =>
    obtain ⟨name, server⟩ := x
    obtain ⟨hserver, hxs⟩ := List.forall_mem_cons.mp h
    obtain ⟨es, hes, hreports⟩ := ih hxs
    rw [List.map_cons, entry, evidenceOf_cons, hes]
    dsimp only
    by_cases hknown : IsKnown rules server
    · obtain ⟨e, he, hreport⟩ := exists_reports file name hserver hknown
      rw [he]
      exact ⟨e :: es, rfl, .reported hreport hreports⟩
    · rw [serverEvidence?_eq_none hknown]
      exact ⟨es, rfl, .silent hknown hreports⟩

/-- Servers that are left out have no evidence if their commands are not known. -/
theorem evidenceOf_filter {xs : List (Text × Value)} {keep : Text × Value → Bool}
    (h : ∀ x ∈ xs, IsKnown rules x.2 → keep x = true) :
    evidenceOf rules file ((xs.filter keep).map entry) = evidenceOf rules file (xs.map entry) := by
  induction xs with
  | nil => rfl
  | cons x xs ih =>
    obtain ⟨hx, hxs⟩ := List.forall_mem_cons.mp h
    rw [List.map_cons, evidenceOf_cons, ← ih hxs]
    cases hkeep : keep x with
    | true => rw [List.filter_cons_of_pos hkeep, List.map_cons, evidenceOf_cons]
    | false =>
      have hnone : serverEvidence? rules file (entry x).1 (entry x).2 = .ok none :=
        serverEvidence?_eq_none (fun hknown =>
          absurd (hx hknown) (Bool.eq_false_iff.mp hkeep)) _
      rw [List.filter_cons_of_neg (by simp [hkeep]), hnone]
      cases evidenceOf rules file ((xs.filter keep).map _) <;> rfl

/-- The command of a server that is reported is known. -/
theorem Reports.isKnown {x : Text × Value} {e : Evidence} (h : Reports rules file x e) :
    IsKnown rules x.2 := by
  cases h with
  | intro starts nonempty entry => exact ⟨_, _, _, starts, nonempty, entry⟩

/-- A command is known if it is that of a server with a known command. -/
theorem SameCommand.isKnown {v w : Value} (h : SameCommand v w) (hv : IsKnown rules v) :
    IsKnown rules w := by
  obtain ⟨c, args, rule, hstarts, hne, hentry⟩ := hv
  obtain ⟨args', hstarts'⟩ := (h c).mp ⟨args, hstarts⟩
  exact ⟨c, args', rule, hstarts', hne, hentry⟩

/-- What reports servers with the same command is the same but for the detail. -/
theorem Reports.undetailed_eq {x y : Text × Value} {e e' : Evidence} (h : Reports rules file x e)
    (h' : Reports rules file y e') (hsame : SameCommand x.2 y.2) :
    e.undetailed = e'.undetailed := by
  cases h with
  | intro starts _ entry =>
    cases h' with
    | intro starts' _ entry' =>
      obtain ⟨args, hstarts⟩ := (hsame _).mp ⟨_, starts⟩
      obtain ⟨rfl, -⟩ := hstarts.unique starts'
      cases entry.symm.trans entry'
      rfl

/-- What reports servers with the same commands is the same but for the details. -/
theorem ReportsAll.undetailed_eq {xs ys : List (Text × Value)} {es es' : List Evidence}
    (h : ReportsAll rules file xs es) (h' : ReportsAll rules file ys es')
    (hsame : List.Forall₂ (fun x y => SameCommand x.2 y.2) xs ys) :
    es.map (·.undetailed) = es'.map (·.undetailed) := by
  induction hsame generalizing es es' with
  | nil =>
    cases h
    cases h'
    rfl
  | cons hxy _ ih =>
    -- Either both servers are reported or none is, since their commands are known alike.
    cases h with
    | reported report rest =>
      cases h' with
      | reported report' rest' =>
        rw [List.map_cons, List.map_cons, ih rest rest', report.undetailed_eq report' hxy]
      | silent silent' => exact absurd (hxy.isKnown report.isKnown) silent'
    | silent silent rest =>
      cases h' with
      | reported report' => exact absurd (hxy.symm.isKnown report'.isKnown) silent
      | silent _ rest' => exact ih rest rest'

end Evidence

/-! ## Configurations -/

/-- The entries of a plan stand for its servers. -/
theorem Plan.spellsServers (p : Plan) : SpellsServers p.entries p.servers := by
  unfold SpellsServers entries
  rw [List.forall₂_map_left_iff]
  exact List.forall₂_same.mpr fun x _ => ⟨rfl, .same x.2⟩

/-- No entry that stands for a server of a plan has the name under which servers stand. -/
theorem SpellsServers.lookup_eq_none {es : List (Value × Value)} {p : Plan}
    (h : SpellsServers es p.servers) : Value.lookup es "mcpServers" = none := by
  unfold Value.lookup
  rw [Option.map_eq_none_iff, List.find?_eq_none]
  intro e he htext
  obtain ⟨x, hx, hname, -⟩ := exists_partner h he
  rw [hname, Value.isText_iff] at htext
  exact p.names x hx (Value.text.inj htext)

/-- Whatever the shape, the evidence is that of the entries of the plan. -/
theorem Spells.evidence_eq {config : Value} {p : Plan} (h : Spells config p) (rules : RuleTables)
    (file : Text) : evidence rules file config = evidenceOf rules file p.entries := by
  change evidenceOf rules file (servers config) = _
  cases h with
  | bare entries hservers =>
    rw [servers_of_bare entries hservers.lookup_eq_none, hservers.evidenceOf_eq]
  | wrapped entries key inner_entries hservers =>
    rw [servers_of_wrapped entries key, inner_entries, Option.getD_some, hservers.evidenceOf_eq]

end Servers

/-- The shape of a server configuration does not matter: every configuration that spells a plan has
the same evidence, be it the mapping of the servers or one with that mapping in it, and be the
commands alone or in mappings. Leaving out servers whose commands are not known changes nothing. If
the values are values of JSON, the evidence is, in order, one piece for each server whose command is
known, and it is the same but for the details if the commands are. -/
theorem server_shapes_agree (rules : RuleTables) (file : Text) (p : Servers.Plan) :
    Servers.Spells p.bare p ∧
    (∀ top, Value.lookup top "mcpServers" = some p.bare → Servers.Spells (.map top) p) ∧
    (∀ config, Servers.Spells config p →
      Servers.evidence rules file config = Servers.evidence rules file p.bare) ∧
    (∀ keep : Text × Value → Bool,
      (∀ x ∈ p.servers, Servers.IsKnown rules x.2 → keep x = true) →
      Servers.evidence rules file (p.filter keep).bare = Servers.evidence rules file p.bare) ∧
    ((∀ x ∈ p.servers, Json.IsJson x.2) →
      ∃ es, Servers.evidence rules file p.bare = .ok es ∧
        Servers.ReportsAll rules file p.servers es ∧
        ∀ q : Servers.Plan, (∀ y ∈ q.servers, Json.IsJson y.2) →
          List.Forall₂ (fun x y => Servers.SameCommand x.2 y.2) p.servers q.servers →
          ∃ es', Servers.evidence rules file q.bare = .ok es' ∧
            es'.map (·.undetailed) = es.map (·.undetailed)) := by
  have hbare (q : Servers.Plan) : Servers.Spells q.bare q := .bare rfl q.spellsServers
  have hentries (q : Servers.Plan) : Servers.evidence rules file q.bare =
      Servers.evidenceOf rules file q.entries := (hbare q).evidence_eq rules file
  refine ⟨hbare p, fun top htop => .wrapped rfl htop rfl p.spellsServers, fun config h => ?_,
    fun keep h => ?_, fun hjson => ?_⟩
  · rw [h.evidence_eq, hentries]
  · rw [hentries, hentries]
    exact Servers.evidenceOf_filter h
  · obtain ⟨es, hes, hreports⟩ := Servers.exists_reportsAll rules file hjson
    refine ⟨es, (hentries p).trans hes, hreports, fun q hq hsame => ?_⟩
    obtain ⟨es', hes', hreports'⟩ := Servers.exists_reportsAll rules file hq
    exact ⟨es', (hentries q).trans hes', (hreports.undetailed_eq hreports' hsame).symm⟩

namespace Servers

/-- A server with arguments. -/
def launched (c : Text) (args : List Value) : Value :=
  .map [(.text "command", .text c), (.text "args", .list args)]

/-- Two servers whose commands are known, with a truth value and a command that is not known between
them, the first one with some arguments. -/
def samplePlan (args : List Value) : Plan where
  servers := [("db", launched "python3" args), ("enabled", .bool true), ("fetch", .text "uvx"),
    ("runner", .text "uv")]
  names := by
    simp only [List.forall_mem_cons, List.not_mem_nil, false_implies, implies_true, and_true]
    decide

/-- The same in a mapping of its own, with a command alone in a mapping and something else besides
the servers. -/
def sampleConfig (args : List Value) : Value :=
  .map [(.text "mcpServers", .map [(.text "db", launched "python3" args),
    (.text "enabled", .bool true), (.text "fetch", .text "uvx"),
    (.text "runner", .map [(.text "command", .text "uv")])]), (.text "servers", .null)]

/-- The sample configuration spells the sample plan. -/
theorem spells_sample (args : List Value) : Spells (sampleConfig args) (samplePlan args) :=
  .wrapped rfl rfl rfl (.cons ⟨rfl, .same _⟩ (.cons ⟨rfl, .same _⟩ (.cons ⟨rfl, .same _⟩
    (.cons ⟨rfl, .inside _⟩ .nil))))

/-- A server with arguments is a value of JSON if they are. -/
theorem isJson_launched (c : Text) {args : List Value} (h : ∀ v ∈ args, Json.IsJson v) :
    Json.IsJson (launched c args) := by
  refine .map (by simp) ?_
  simp only [List.forall_mem_cons, List.not_mem_nil, false_implies, implies_true, and_true]
  exact ⟨.text c, .list h⟩

/-- So the servers of the sample plan are values of JSON. -/
theorem isJson_samplePlan {args : List Value} (h : ∀ v ∈ args, Json.IsJson v) :
    ∀ x ∈ (samplePlan args).servers, Json.IsJson x.2 := by
  simp only [samplePlan, List.forall_mem_cons, List.not_mem_nil, false_implies, implies_true,
    and_true]
  exact ⟨isJson_launched "python3" h, .bool true, .text _, .text _⟩

/-- The command of a server with arguments does not depend on them. -/
theorem sameCommand_launched (c : Text) (args args' : List Value) :
    SameCommand (launched c args) (launched c args') := by
  have hstarts (args args' : List Value) (d : Text) :
      (∃ a, Starts (launched c args) d a) → ∃ a, Starts (launched c args') d a := by
    rintro ⟨a, h⟩
    obtain ⟨rfl, -⟩ := h.unique (.inside (c := c) rfl rfl)
    exact ⟨_, .inside rfl rfl⟩
  exact fun d => ⟨hstarts args args' d, hstarts args' args d⟩

end Servers

/-- The sample configuration has the evidence of its plan, also without the truth value and with
other arguments. -/
theorem server_shapes_agree_mixed :
    Servers.evidence Bundled.tables ".mcp.json" (Servers.sampleConfig [.text "-m"]) =
      Servers.evidence Bundled.tables ".mcp.json" (Servers.samplePlan [.text "-m"]).bare ∧
    Servers.evidence Bundled.tables ".mcp.json"
        ((Servers.samplePlan [.text "-m"]).filter (·.1 != "enabled")).bare =
      Servers.evidence Bundled.tables ".mcp.json" (Servers.samplePlan [.text "-m"]).bare ∧
    ∃ es, Servers.evidence Bundled.tables ".mcp.json" (Servers.samplePlan [.text "-m"]).bare =
        .ok es ∧
      Servers.ReportsAll Bundled.tables ".mcp.json" (Servers.samplePlan [.text "-m"]).servers es ∧
      ∃ es', Servers.evidence Bundled.tables ".mcp.json" (Servers.samplePlan [.null]).bare =
          .ok es' ∧ es'.map (·.undetailed) = es.map (·.undetailed) := by
  obtain ⟨-, -, hspells, hfilter, hjson⟩ :=
    server_shapes_agree Bundled.tables ".mcp.json" (Servers.samplePlan [.text "-m"])
  -- Only the entry that is called enabled is left out, and a truth value starts no server.
  have hkeep : ∀ x ∈ (Servers.samplePlan [.text "-m"]).servers,
      Servers.IsKnown Bundled.tables x.2 → (x.1 != "enabled") = true := by
    simp only [Servers.samplePlan, List.forall_mem_cons, List.not_mem_nil, false_implies,
      implies_true, and_true]
    refine ⟨fun _ => rfl, ?_, fun _ => rfl, fun _ => rfl⟩
    rintro ⟨c, args, rule, hstarts, -⟩
    cases hstarts with
    | inside entries => cases entries
  obtain ⟨es, hes, hreports, hother⟩ :=
    hjson (Servers.isJson_samplePlan (by simpa using Json.IsJson.text _))
  refine ⟨hspells _ (Servers.spells_sample _), hfilter _ hkeep, es, hes, hreports, ?_⟩
  refine hother _ (Servers.isJson_samplePlan (by simpa using Json.IsJson.null)) ?_
  exact .cons (Servers.sameCommand_launched _ _ _)
    (.cons (.refl _) (.cons (.refl _) (.cons (.refl _) .nil)))

example : (Servers.evidence Bundled.tables ".mcp.json" (Servers.sampleConfig [])).map
    (·.map (·.signal)) = .ok ["python3", "uv"] := by decide +kernel

end SurfaceAudit
