import SurfaceAudit.Result
import SurfaceAudit.Scan.Task

/-!
# Analyses

The analysis of a plugin: its contents are read, the scanners run over them, evidence without impact
is dropped, and the worst of the rest decides. In a sweep over several plugins, one without a usable
manifest gets an entry that says so, and the others are analysed all the same.
-/

namespace SurfaceAudit

/-- What an analysis needs besides a plugin. -/
structure Analyzer where
  /-- The settings. -/
  config : Config
  /-- The rules. -/
  rules : RuleTables
  /-- The order in which several workers finish. -/
  schedule : Schedule := .inTurn

/-- The outcome of the analysis of one plugin in a sweep. -/
structure BatchEntry where
  /-- The path of the plugin, as it was given. -/
  path : Text
  /-- The result, if there is one. -/
  result : Option Result
  /-- The words for what is wrong with the manifest, if anything is. -/
  error : Option Text
  deriving DecidableEq, Inhabited

namespace Analyzer

/-- How many files of which kind there are. -/
def summary (c : Contents) : Summary :=
  let count (k : FileKind) : Int := (c.ofKind k).length
  ⟨c.files.length, count .markdown, count .script, count .hooks, count .servers⟩

/-- All evidence that the scanners find in contents, and the notes after those that were taken when
they were read. -/
def scan (a : Analyzer) (c : Contents) (notes : List Note) :
    Attempt (List Evidence × List Note) := do
  let (tasks, shapes) := ScanTask.ofContents a.config.scanners a.rules c
  let workers ← a.config.workers.toInt
  let (batches, notes) := ScanTask.runAll a.schedule workers tasks (notes ++ shapes)
  return (batches.flatten, notes)

/-- Reads the plugin at a path and scans it. -/
def survey (a : Analyzer) (d : Disk) (path : Text) :
    Attempt (Contents × List Evidence × List Note) := do
  let plugin ← Plugin.open? d path a.config.files
  let (contents, notes) := (plugin.contents d).runFrom []
  let c ← contents
  let (found, notes) ← a.scan c notes
  return (c, found, notes)

/-- The result for contents, the evidence found in them, and the notes on them. -/
def resultOf (c : Contents) (found : List Evidence) (notes : List Note) : Result :=
  -- What restricts no surface is no evidence against the plugin.
  let evidence := found.filter (!·.isInformational)
  { plugin := c.manifest.name
    version := c.manifest.version
    declared := c.manifest.targets
    analyzed := Evidence.verdicts evidence
    evidence
    summary := summary c
    errors := notes.map Note.message }

/-- Analyses the plugin at a path. -/
def analyze (a : Analyzer) (d : Disk) (path : Text) : Attempt Result := do
  let (c, found, notes) ← a.survey d path
  return resultOf c found notes

/-- The entry for a plugin in a sweep. -/
def entry (a : Analyzer) (d : Disk) (path : Text) : Attempt BatchEntry :=
  match a.analyze d path with
  | .ok r => .ok ⟨path, some r, none⟩
  | .error (.manifest defect) => .ok ⟨path, none, some defect.message⟩
  | .error f => .error f

/-- Entries that are filed under their numbers; the first failure ends the sweep. -/
def filed : List (Nat × Attempt BatchEntry) → Attempt (List (Nat × BatchEntry))
  | [] => .ok []
  | (i, outcome) :: r => do
    let e ← outcome
    return (i, e) :: (← filed r)

/-- Analyses several plugins; the entries are in the order of the paths. The number of workers is
that of the settings unless another is given. -/
def analyzeMany (a : Analyzer) (d : Disk) (paths : List Text) (workers : Option Value) :
    Attempt (List BatchEntry) := do
  if paths.isEmpty then return []
  else
    let wanted ← (workers.getD a.config.workers).toInt
    let size := Pool.size wanted paths.length
    let order := Pool.finished a.schedule size paths.length
    let entries ← filed (Pool.outcomes (a.entry d) paths order)
    return Pool.gathered paths.length entries

end Analyzer

end SurfaceAudit
