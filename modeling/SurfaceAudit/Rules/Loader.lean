import SurfaceAudit.FileTree.Disk
import SurfaceAudit.Pattern.Parse
import SurfaceAudit.Rank
import SurfaceAudit.Rules.Defect
import SurfaceAudit.Rules.Table
import SurfaceAudit.Value.Container
import SurfaceAudit.Yaml.Document

/-!
# Loading rules

A store of rules reads the files of a directory, one after the other, and publishes what it has
read: the rules for commands in the order of their priorities, of which each may occur once, and the
tables as they are. Defects of files and entries are noted, and the entries left out. A fault ends
the loading; what was read until then stays in the store, but is not published.
-/

namespace SurfaceAudit

/-- The rules that were read and those that are published, with the defects found. -/
structure RuleStore where
  /-- The directory of the files. -/
  directory : Text
  /-- What was read so far, the rules for commands in the order of reading. -/
  pending : RuleTables := .empty
  /-- What is published. -/
  tables : RuleTables := .empty
  /-- The defects found so far. -/
  defects : List RuleDefect := []

/-- The tables by name. -/
inductive TableName where
  /-- The programs that start servers. -/
  | binaries
  /-- The script files by extension. -/
  | scripts
  /-- The imports by language. -/
  | imports
  /-- The tools that need the local environment. -/
  | tools
  deriving DecidableEq

namespace TableName

/-- All tables, in the order in which they are read. -/
def all : List TableName := [.binaries, .scripts, .imports, .tools]

/-- The name of a table in a file. -/
def name : TableName → Text
  | .binaries => "binaries"
  | .scripts => "script_rules"
  | .imports => "import_rules"
  | .tools => "restricted_tools"

/-- The field of an entry that holds its signal; without one, the name is the signal. -/
def signalField? : TableName → Option Text
  | .binaries | .scripts => some "signal"
  | .imports => some "signal_prefix"
  | .tools => none

/-- The table in tables. -/
def of (t : TableName) (rules : RuleTables) : SignalTable :=
  match t with
  | .binaries => rules.binaries
  | .scripts => rules.scripts
  | .imports => rules.imports
  | .tools => rules.tools

/-- The tables with one of them changed. -/
def modify (t : TableName) (f : SignalTable → SignalTable) (rules : RuleTables) : RuleTables :=
  match t with
  | .binaries => { rules with binaries := f rules.binaries }
  | .scripts => { rules with scripts := f rules.scripts }
  | .imports => { rules with imports := f rules.imports }
  | .tools => { rules with tools := f rules.tools }

end TableName

namespace RuleStore

/-- A step of loading, which may end it with a fault. -/
abbrev Loading := ExceptT Fault (StateM RuleStore)

namespace Loading

/-- A step that may fail. -/
def ofAttempt {α : Type} (a : Attempt α) : Loading α := ExceptT.mk (pure a)

/-- Notes a defect. -/
def note (d : RuleDefect) : Loading Unit :=
  modify fun s => { s with defects := s.defects ++ [d] }

/-- Notes a defect and gives nothing. -/
def refuse {α : Type} (d : RuleDefect) : Loading (Option α) := do
  note d
  return none

/-- The template that a value names. -/
def template? (v : Value) : Loading (Option Template) := do
  let key ← ofAttempt v.asKey
  return key.text?.bind Template.ofText?

/-- The flag of a pattern that a value names. -/
def flag? (v : Value) : Loading (Option Pattern.Flag) := do
  let key ← ofAttempt v.asKey
  return [(("IGNORECASE" : Text), Pattern.Flag.ignoreCase), ("MULTILINE", .multiLine),
    ("DOTALL", .dotAll)].findSome? fun (name, flag) => if key.isText name then some flag else none

/-- The flags that values name; others are noted. -/
def flags (signal : Text) : List Value → Pattern.Flags → Loading Pattern.Flags
  | [], done => return done
  | v :: r, done => do
    match ← flag? v with
    | some f => flags signal r (if done.contains f then done else f :: done)
    | none =>
      let shown ← ofAttempt v.shown
      note (.flag shown signal)
      flags signal r done

/-- The fields that every rule for commands has. -/
def requiredFields : List Text := ["priority", "signal", "pattern", "impact"]

/-- The pattern of a rule, with its text. -/
def pattern? (signal : Text) (es : List (Value × Value)) :
    Loading (Option (Text × Pattern.Expr)) := do
  let text ← ofAttempt (Value.field es "pattern").shown
  if RuleDefect.patternLimit < text.length then refuse (.patternLength signal)
  else
    let names ← ofAttempt (Value.field es "pattern_flags").elementsIfTrue
    let flags ← flags signal names []
    match Pattern.Expr.parse flags text with
    | .ok e => return some (text, e)
    | .error (.defect d) => refuse (.pattern signal d.message)
    | .error (.fault f) => throw f

/-- The rule for commands that a mapping with all fields describes. -/
def rule? (es : List (Value × Value)) : Loading (Option CommandRule) := do
  let signal ← ofAttempt (Value.field es "signal").shown
  match Value.field es "priority" with
  | .int priority =>
    match ← template? (Value.field es "impact") with
    | none =>
      let shown ← ofAttempt (Value.field es "impact").shown
      refuse (.commandTemplate shown signal)
    | some template =>
      match ← pattern? signal es with
      | some (text, expr) => return some ⟨priority, signal, text, expr, template⟩
      | none => return none
  | _ => refuse (.priority signal)

/-- The rule for commands that a value describes. -/
def commandRule? (path : Text) (v : Value) : Loading (Option CommandRule) := do
  match v.entries? with
  | none => refuse (.commandShape path)
  | some es =>
    match requiredFields.find? fun f => (Value.lookup es f).isNone with
    | some missing => refuse (.fieldMissing missing path)
    | none => rule? es

/-- Reads rules for commands. -/
def commandRules (path : Text) : List Value → Loading Unit
  | [] => return ()
  | v :: r => do
    match ← commandRule? path v with
    | some rule =>
      modify fun s => { s with pending.commands := s.pending.commands ++ [rule] }
    | none => pure ()
    commandRules path r

/-- The signal of an entry of a table. -/
def signal? (t : TableName) (name : Text) (es : List (Value × Value)) : Loading (Option Text) := do
  match t.signalField? with
  | none => return some name
  | some field =>
    match Value.lookup es field with
    | some v => return some (← ofAttempt v.shown)
    | none => refuse (.signalMissing field name t.name)

/-- The entry of a table that a value describes. -/
def signalRule? (t : TableName) (name : Text) (v : Value) : Loading (Option SignalRule) := do
  match v.entries? with
  | none => refuse (.entryShape name t.name)
  | some es =>
    match ← template? (Value.field es "impact") with
    | none =>
      let shown ← ofAttempt (Value.field es "impact").shown
      refuse (.entryTemplate shown name t.name)
    | some template =>
      match ← signal? t name es with
      | some signal => return some ⟨signal, template⟩
      | none => return none

/-- Reads the entries of a table. An entry takes the place of one with its name. -/
def tableEntries (t : TableName) : List (Value × Value) → Loading Unit
  | [] => return ()
  | (k, v) :: r => do
    let name ← ofAttempt k.shown
    match ← signalRule? t name v with
    | some rule =>
      let store ← get
      -- Only what is valid can take the place of another entry, so this comes last.
      if ((t.of store.pending).get? name).isSome then note (.duplicate name t.name)
      modify fun s => { s with pending := t.modify (·.put name rule) s.pending }
    | none => pure ()
    tableEntries t r

/-- Reads a table from a file. -/
def table (path : Text) (content : List (Value × Value)) (t : TableName) : Loading Unit := do
  match Value.field content t.name with
  | .null => return ()
  | v =>
    match v.entries? with
    | some es => tableEntries t es
    | none => note (.sectionShape t.name path)

/-- Reads the content of a file. -/
def content (path : Text) (v : Value) : Loading Unit := do
  if v.isTrue then
    match v.entries? with
    | some es =>
      let rules ← ofAttempt (Value.field es "command_rules").elementsIfTrue
      commandRules path rules
      TableName.all.forM (table path es)
    | none => note (.notMapping path)
  else note (.empty path)

/-- Reads a file. -/
def file (d : Disk) (path : Text) : Loading Unit :=
  match d.read path with
  | .error (.file defect place) => note (.unreadable path defect place)
  | .error f => throw f
  | .ok bytes =>
    match Utf8.readPieces bytes with
    | .error defect => throw (.undecodable defect)
    | .ok t =>
      match Yaml.load t with
      | .error .malformed => note (.notYaml path)
      | .error (.fault f) => throw f
      | .ok v => content path v

/-- The rules of which each has a priority of its own; of several with one priority the first is
kept, and the others are noted. -/
def distinct : List CommandRule → List CommandRule → Loading (List CommandRule)
  | [], kept => return kept.reverse
  | rule :: r, kept => do
    match kept.find? (·.priority == rule.priority) with
    | some first =>
      let shown ← ofAttempt (Number.writeInt rule.priority)
      note (.samePriority shown first.signal rule.signal)
      distinct r kept
    | none => distinct r (rule :: kept)

/-- The rules in the order of their priorities; rules with one priority stay in order. -/
def byPriority (rules : List CommandRule) : List CommandRule :=
  Rank.sort (fun a b => a.priority ≤ b.priority) rules

/-- Publishes what was read. -/
def publish : Loading Unit := do
  let store ← get
  let commands ← distinct (byPriority store.pending.commands) []
  modify fun s => { s with tables := { s.pending with commands } }

end Loading

/-- The names in a directory that end in an extension, in order. -/
def namesWith (d : Disk) (directory extension : Text) : List Text :=
  match d.find? directory with
  | some (.directory es) => Text.sort ((es.map (·.1)).filter (extension.isSuffixOf ·))
  | _ => []

/-- The files of a directory of rules: those with the long extension come first. -/
def fileNames (d : Disk) (directory : Text) : List Text :=
  namesWith d directory ".yaml" ++ namesWith d directory ".yml"

/-- Reads all files of the directory and publishes the rules. -/
def loading (d : Disk) : Loading Unit := do
  let store ← get
  if ← Loading.ofAttempt (d.contains store.directory) then
    (fileNames d store.directory).forM fun name => Loading.file d (Path.below store.directory name)
    Loading.publish
  else Loading.note (.noDirectory store.directory)

/-- Loads the rules of the directory on top of what was read before. -/
def load (s : RuleStore) (d : Disk) : Attempt Unit × RuleStore := (loading d).run.run s

/-- The entry of a table as a mapping. -/
def signalValue (r : SignalRule) : Value :=
  .map [(.text "signal", .text r.signal), (.text "impact", .text r.template.name)]

/-- A rule for commands as a mapping. -/
def commandValue (r : CommandRule) : Value :=
  .map [(.text "priority", .int r.priority), (.text "signal", .text r.signal),
    (.text "pattern", .text r.pattern), (.text "impact", .text r.template.name)]

/-- A table as a mapping. -/
def tableValue (f : SignalRule → Value) (t : SignalTable) : Value :=
  .map (t.map fun (name, rule) => (.text name, f rule))

/-- How many rules are published, and how many defects were found. -/
def statistics (s : RuleStore) : List (Text × Nat) :=
  [("command_rules", s.tables.commands.length), ("binaries", s.tables.binaries.length),
    ("script_rules", s.tables.scripts.length), ("import_rules", s.tables.imports.length),
    ("restricted_tools", s.tables.tools.length), ("errors", s.defects.length)]

/-- The published rules, the statistics and the words for the defects. -/
def toValue (s : RuleStore) : Value :=
  .map
    [(.text "command_rules", .list (s.tables.commands.map commandValue)),
      (.text "binaries", tableValue signalValue s.tables.binaries),
      (.text "script_rules", tableValue signalValue s.tables.scripts),
      (.text "restricted_tools", tableValue (fun r => .text r.template.name) s.tables.tools),
      (.text "stats", .map (s.statistics.map fun (name, n) => (.text name, .int n))),
      (.text "errors", .list (s.defects.map fun d => .text d.message))]

end RuleStore

end SurfaceAudit
