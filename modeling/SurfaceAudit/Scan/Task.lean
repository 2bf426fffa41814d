import SurfaceAudit.Declaration
import SurfaceAudit.Hooks
import SurfaceAudit.Markdown.Commands
import SurfaceAudit.Plugin.Contents
import SurfaceAudit.Scan.Pool
import SurfaceAudit.Script.Evidence
import SurfaceAudit.Servers

/-!
# Scan tasks

A task is one scanner on one file. The tasks for a plugin stand in the order in which their evidence
is wanted: the manifest first, then file by file. A task that fails is noted and has no evidence.
-/

namespace SurfaceAudit

/-- One scanner on one file. -/
structure ScanTask where
  /-- The scanner and the file. -/
  label : Text
  /-- The evidence that the scanner finds. -/
  evidence : Attempt (List Evidence)

namespace ScanTask

/-- A scanner that is on, as a task. -/
def ifOn (setting : Value) (name path : Text) (evidence : Attempt (List Evidence)) :
    List ScanTask :=
  if setting.isTrue then [⟨name ++ ":" ++ path, evidence⟩] else []

/-- The task for a manifest. -/
def ofManifest (s : ScannerSettings) (m : Manifest) : List ScanTask :=
  ifOn s.declaration "declaration" m.path (Declaration.manifestEvidence m.path m.raw)

/-- The tasks for a document. -/
def ofDocument (s : ScannerSettings) (rules : RuleTables) (f : PluginFile) (content : Text) :
    List ScanTask :=
  ifOn s.codeBlock "code_block" f.path (.ok (Markdown.commandEvidence rules f.path content)) ++
    ifOn s.frontmatter "frontmatter" f.path (Declaration.fieldsEvidence rules f.path f.fields)

/-- The tasks for a script. That it is there counts even if it cannot be read. -/
def ofScript (s : ScannerSettings) (rules : RuleTables) (f : PluginFile) : List ScanTask :=
  ifOn s.script "script" f.path (.ok (Script.fileEvidence? rules f.path).toList) ++
    match f.content with
    | some content =>
      ifOn s.scriptImport "script_import" f.path
        (.ok (Script.contentEvidence rules f.path content))
    | none => []

/-- The tasks for a configuration, or a note that it is no object. -/
def ofData (data : Value) (note : Note) (tasks : List ScanTask) : List ScanTask × List Note :=
  if data.isNull then ([], [])
  else if data.entries?.isSome then (tasks, [])
  else ([], [note])

/-- The tasks for a file, and the notes on it. -/
def ofFile (s : ScannerSettings) (rules : RuleTables) (f : PluginFile) :
    List ScanTask × List Note :=
  match f.kind with
  | .markdown =>
    match f.content with
    | some content => (ofDocument s rules f content, [])
    | none => ([], [])
  | .script => (ofScript s rules f, [])
  | .hooks =>
    ofData f.data (.hooksShape f.path)
      (ifOn s.hook "hook" f.path (Hooks.evidence rules f.path f.data))
  | .servers =>
    ofData f.data (.serversShape f.path)
      (ifOn s.mcp "mcp" f.path (Servers.evidence rules f.path f.data))
  | .other => ([], [])

/-- The tasks for the contents of a plugin, and the notes on its files. -/
def ofContents (s : ScannerSettings) (rules : RuleTables) (c : Contents) :
    List ScanTask × List Note :=
  let parts := c.files.map (ofFile s rules)
  (ofManifest s c.manifest ++ parts.flatMap (·.1), parts.flatMap (·.2))

/-- The evidence of a task and the note on it, if it fails. -/
def run (t : ScanTask) : List Evidence × List Note :=
  match t.evidence with
  | .ok es => (es, [])
  | .error f => ([], [.scanner t.label f])

/-- Runs tasks one after the other. The batches of evidence are in the order of the tasks, and a
task that fails is noted after what was noted before. -/
def runInTurn : List ScanTask → List Note → List (List Evidence) × List Note
  | [], notes => ([], notes)
  | t :: r, notes =>
    let (batches, notes) := runInTurn r (notes ++ t.run.2)
    (t.run.1 :: batches, notes)

/-- Runs tasks in a pool, which finishes them in an order of its own. Each task takes its notes by
itself, and they are put together in the order of the tasks. -/
def runPooled (s : Schedule) (tasks : List ScanTask) (notes : List Note) :
    List (List Evidence) × List Note :=
  let outcomes := Pool.run s run tasks
  (outcomes.map (·.1), notes ++ outcomes.flatMap (·.2))

/-- The evidence of tasks, batch by batch in the order of the tasks, and the notes after them. A
single worker needs no pool. -/
def runAll (s : Schedule) (workers : Int) (tasks : List ScanTask) (notes : List Note) :
    List (List Evidence) × List Note :=
  if Pool.size workers tasks.length == 1 then runInTurn tasks notes else runPooled s tasks notes

end ScanTask

end SurfaceAudit
