import SurfaceAudit.Impact

/-!
# Configurations

The settings of a scan, section by section. A setting may have any kind of value until it is used.
-/

namespace SurfaceAudit

/-- Which scanners run. -/
structure ScannerSettings where
  /-- The surfaces that authors list. -/
  declaration : Value := .bool true
  /-- The fields before documents. -/
  frontmatter : Value := .bool true
  /-- The blocks of commands in documents. -/
  codeBlock : Value := .bool true
  /-- The script files. -/
  script : Value := .bool true
  /-- The imports in scripts. -/
  scriptImport : Value := .bool true
  /-- The hooks. -/
  hook : Value := .bool true
  /-- The servers. -/
  mcp : Value := .bool true

/-- How files are told apart and which are passed over. -/
structure FileSettings where
  /-- The extensions of documents. -/
  markdownExtensions : Value := .list [.text ".md"]
  /-- The extensions of scripts. -/
  scriptExtensions : Value :=
    .list [.text ".py", .text ".sh", .text ".bash", .text ".mjs", .text ".js", .text ".cjs"]
  /-- The greatest size of a file that is read, in units of 1024 bytes. -/
  maxFileSize : Value := .int 1024
  /-- The names of directories that are passed over. -/
  skipDirectories : Value :=
    .list [.text "node_modules", .text ".git", .text "__pycache__", .text ".venv", .text "venv"]

/-- What makes a plugin fail. -/
structure GateSettings where
  /-- The verdict from which on it fails, if any. -/
  failOn : Value := .null
  /-- The surfaces that count; all, if none is given. -/
  targets : Value := .list []

/-- What is reported, and where. -/
structure OutputSettings where
  /-- The format of the report. -/
  format : Value := .text "text"
  /-- The file of the report, if any. -/
  file : Value := .null
  /-- More is told. -/
  verbose : Value := .bool false

/-- What is logged, and where. -/
structure LoggingSettings where
  /-- The level from which on records are kept. -/
  level : Value := .text "WARNING"
  /-- The file of the log, if any. -/
  file : Value := .null

/-- The settings of a scan. -/
structure Config where
  /-- The name of the mode. -/
  mode : Value := .text "balanced"
  /-- Which scanners run. -/
  scanners : ScannerSettings := {}
  /-- How files are told apart. -/
  files : FileSettings := {}
  /-- The number of tasks at a time. -/
  workers : Value := .int 1
  /-- What makes a plugin fail. -/
  gate : GateSettings := {}
  /-- What is reported. -/
  output : OutputSettings := {}
  /-- What is logged. -/
  logging : LoggingSettings := {}

/-- The entries of a mapping from names. -/
def named (entries : List (Text × Value)) : Value := .map (entries.map fun (k, v) => (.text k, v))

namespace ScannerSettings

/-- The settings by name. -/
def fields (s : ScannerSettings) : List (Text × Value) :=
  [("declaration", s.declaration), ("frontmatter", s.frontmatter), ("code_block", s.codeBlock),
    ("script", s.script), ("script_import", s.scriptImport), ("hook", s.hook), ("mcp", s.mcp)]

/-- The setting for a scanner; one that is not known runs. -/
def enabled (s : ScannerSettings) (name : Text) : Value :=
  ((s.fields.find? (·.1 == name)).map (·.2)).getD (.bool true)

end ScannerSettings

namespace Config

/-- The settings as nested mappings. -/
def toValue (c : Config) : Value :=
  named
    [("scan_mode", c.mode),
      ("scanners", named c.scanners.fields),
      ("files", named
        [("markdown_extensions", c.files.markdownExtensions),
          ("script_extensions", c.files.scriptExtensions),
          ("max_file_size_kb", c.files.maxFileSize),
          ("skip_dirs", c.files.skipDirectories)]),
      ("performance", named [("workers", c.workers)]),
      ("gate", named [("fail_on", c.gate.failOn), ("targets", c.gate.targets)]),
      ("output", named
        [("format", c.output.format), ("output_file", c.output.file),
          ("verbose", c.output.verbose)]),
      ("logging", named [("level", c.logging.level), ("file", c.logging.file)])]

/-- The surfaces that count for the gate. -/
def gateTargets (c : Config) : Attempt (List Target) := do
  if c.gate.targets.isTrue then
    let wanted ← (← c.gate.targets.elements).mapM Value.shown
    return Target.all.filter fun t => wanted.contains t.name
  else return Target.all

/-- The surfaces on which an impact reaches the verdict from which on a plugin fails, with the
verdicts there. -/
def gateFailures (c : Config) (i : Impact) : Attempt (List (Target × Verdict)) := do
  if c.gate.failOn.isTrue then
    let threshold ← Verdict.ofValue c.gate.failOn
    let targets ← c.gateTargets
    return (targets.filter fun t => decide (threshold ≤ i.on t)).map fun t => (t, i.on t)
  else return []

end Config

end SurfaceAudit
