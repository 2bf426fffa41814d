import SurfaceAudit.Config.Basic
import SurfaceAudit.Config.Merge
import SurfaceAudit.Config.Mode
import SurfaceAudit.FileTree.Disk
import SurfaceAudit.Yaml.Document

/-!
# Loading configurations

Settings come in layers: defaults, the environment, a file, and the command line. Later layers are
laid over earlier ones, and the profile of the mode that results lies below them all.
-/

namespace SurfaceAudit.Config

/-- The layer of defaults. -/
def defaults : List (Value × Value) :=
  [(.text "scan_mode", .text "balanced"),
    (.text "files", named
      [("markdown_extensions", .list [.text ".md"]),
        ("script_extensions", .list
          [.text ".py", .text ".sh", .text ".bash", .text ".mjs", .text ".js", .text ".cjs"]),
        ("max_file_size_kb", .int 1024),
        ("skip_dirs", .list
          [.text "node_modules", .text ".git", .text "__pycache__", .text ".venv",
            .text "venv"])]),
    (.text "performance", named [("workers", .int 1)]),
    (.text "output", named
      [("format", .text "text"), ("output_file", .null), ("verbose", .bool false)]),
    (.text "logging", named [("level", .text "WARNING"), ("file", .null)])]

/-- The variables of the environment that hold settings. -/
structure Environment where
  /-- The mode. -/
  mode : Text := []
  /-- The number of tasks at a time. -/
  workers : Text := []
  /-- Whether more is told. -/
  verbose : Text := []
  /-- The level of the log. -/
  level : Text := []

/-- The words that turn a setting on. -/
def yesWords : List Text := ["1", "true", "yes"]

/-- The layer of the environment; empty variables set nothing. -/
def environmentLayer (e : Environment) : Attempt (List (Value × Value)) := do
  let mode := if e.mode.isEmpty then [] else [(.text "scan_mode", .text e.mode)]
  let workers ← if e.workers.isEmpty then pure [] else do
    let n ← Number.readInt 10 e.workers
    pure [(.text "performance", named [("workers", .int n)])]
  let verbose := if yesWords.contains e.verbose.lower then
    [(.text "output", named [("verbose", .bool true)])] else []
  let level := if e.level.isEmpty then []
    else [(.text "logging", named [("level", .text e.level)])]
  return mode ++ workers ++ verbose ++ level

/-- The mapping in a file. A missing file, one that is not YAML and one that holds something else
give an empty mapping. -/
def fileLayer (d : Disk) (path : Text) : Attempt (List (Value × Value)) :=
  match d.read path with
  | .error (.file .missing _) => .ok []
  | .error f => .error f
  | .ok bytes =>
    match Utf8.readPieces bytes with
    | .error defect => .error (.undecodable defect)
    | .ok t =>
      match Yaml.load t with
      | .error .malformed => .ok []
      | .error (.fault f) => .error f
      | .ok v => .ok (v.entries?.getD [])

/-- The names of the file that is looked for in the current directory. -/
def fileNames : List Text := ["compat-scanner.yaml", ".compat-scanner.yaml"]

/-- The file of settings: the given one, or the first in the current directory. -/
def filePath? (d : Disk) (given : Value) : Attempt (Option Text) :=
  if given.isTrue then
    match given with
    | .text t => .ok (some (Path.tidy t))
    | v => .error (.kind (.notPath v.kindName))
  else d.firstThere? (fileNames.map fun n => Path.absolute (d.current ++ [n]))

/-- A section of the settings. One that is null is empty. -/
def sectionOf (settings : List (Value × Value)) (name : Text) : Attempt (List (Value × Value)) :=
  match Value.field settings name with
  | .null => .ok []
  | v =>
    match v.entries? with
    | some entries => .ok entries
    | none => .error (.sectionShape name v.kindName)

/-- Names that every section has besides its settings, and which no value can be given. -/
def reserved : List Text :=
  List.map Text.ofString
    ["__annotations__", "__base__", "__bases__", "__basicsize__", "__call__", "__class__",
      "__dataclass_fields__", "__dataclass_params__", "__delattr__", "__dict__",
      "__dictoffset__", "__dir__", "__doc__", "__eq__", "__flags__", "__format__", "__ge__",
      "__getattribute__", "__getstate__", "__gt__", "__hash__", "__init__",
      "__init_subclass__", "__instancecheck__", "__itemsize__", "__le__", "__lt__",
      "__match_args__", "__module__", "__mro__", "__name__", "__ne__", "__new__", "__or__",
      "__prepare__", "__qualname__", "__reduce__", "__reduce_ex__", "__repr__", "__ror__",
      "__setattr__", "__sizeof__", "__str__", "__subclasscheck__", "__subclasses__",
      "__subclasshook__", "__text_signature__", "__weakref__", "__weakrefoffset__", "mro"]

/-- Checks the names in a section that knows what it does not know: a name that is no text, and one
that is reserved. Other names are passed over. -/
def checkNames (entries : List (Value × Value)) : Attempt Unit := do
  for (k, _) in entries do
    match k with
    | .text _ => pure ()
    | k => throw (.kind (.notText k.kindName))
  match entries.filterMap fun e => e.1.text?.filter reserved.contains with
  | [] => return ()
  | name :: _ => throw (.kind (.unknownSetting name))

/-- The value of a name in a section, or a default. -/
def setting (entries : List (Value × Value)) (name : Text) (otherwise : Value) : Value :=
  (Value.lookup entries name).getD otherwise

/-- The scanners of a section. -/
def scannersOf (es : List (Value × Value)) : ScannerSettings :=
  let d : ScannerSettings := {}
  ⟨setting es "declaration" d.declaration, setting es "frontmatter" d.frontmatter,
    setting es "code_block" d.codeBlock, setting es "script" d.script,
    setting es "script_import" d.scriptImport, setting es "hook" d.hook,
    setting es "mcp" d.mcp⟩

/-- The file settings of a section. -/
def filesOf (es : List (Value × Value)) : FileSettings :=
  let d : FileSettings := {}
  ⟨setting es "markdown_extensions" d.markdownExtensions,
    setting es "script_extensions" d.scriptExtensions,
    setting es "max_file_size_kb" d.maxFileSize, setting es "skip_dirs" d.skipDirectories⟩

/-- The gate of a section. -/
def gateOf (es : List (Value × Value)) : GateSettings :=
  let d : GateSettings := {}
  ⟨setting es "fail_on" d.failOn, setting es "targets" d.targets⟩

/-- The output of a section. -/
def outputOf (es : List (Value × Value)) : OutputSettings :=
  let d : OutputSettings := {}
  ⟨setting es "format" d.format, setting es "output_file" d.file, setting es "verbose" d.verbose⟩

/-- The logging of a section. -/
def loggingOf (es : List (Value × Value)) : LoggingSettings :=
  let d : LoggingSettings := {}
  ⟨setting es "level" d.level, setting es "file" d.file⟩

/-- The configuration that settings describe. -/
def ofSettings (settings : List (Value × Value)) : Attempt Config := do
  let mode := Value.field settings "scan_mode"
  let scanners ← sectionOf settings "scanners"
  checkNames scanners
  let files ← sectionOf settings "files"
  let performance ← sectionOf settings "performance"
  checkNames performance
  let gate ← sectionOf settings "gate"
  let output ← sectionOf settings "output"
  checkNames output
  let logging ← sectionOf settings "logging"
  checkNames logging
  return ⟨if mode.isTrue then mode else .text "balanced", scannersOf scanners, filesOf files,
    setting performance "workers" (.int 1), gateOf gate, outputOf output, loggingOf logging⟩

/-- The verdict from which on plugins fail is none, a review, or incompatible. -/
def checkThreshold (v : Value) : Attempt Unit :=
  match v with
  | .null => .ok ()
  | v =>
    if v.isText Verdict.needsReview.name || v.isText Verdict.incompatible.name then .ok ()
    else v.shown.bind fun shown => .error (.threshold shown)

/-- The layers merged, the profile of their mode below them. -/
def underMode (merged : List (Value × Value)) : Attempt (List (Value × Value)) := do
  let mode ← Mode.ofValue ((Value.lookup merged "scan_mode").getD (.text "balanced"))
  return Value.mergeEntries mode.profile merged

/-- Lays the settings of the command line over others; what counts as false sets nothing. -/
def underCommandLine (settings : List (Value × Value)) (upper : Value) :
    Attempt (List (Value × Value)) :=
  if upper.isTrue then
    match upper.entries? with
    | some entries => .ok (Value.mergeEntries settings entries)
    | none => .error (.partMissing upper.kindName "items")
  else .ok settings

/-- Loads the configuration from all layers. -/
def load (e : Environment) (d : Disk) (path upper : Value) : Attempt Config := do
  let environment ← environmentLayer e
  let merged := Value.mergeEntries defaults environment
  let file ← match ← filePath? d path with
    | some p => fileLayer d p
    | none => pure []
  let merged ← underCommandLine (Value.mergeEntries merged file) upper
  let c ← ofSettings (← underMode merged)
  checkThreshold c.gate.failOn
  return c

end SurfaceAudit.Config
