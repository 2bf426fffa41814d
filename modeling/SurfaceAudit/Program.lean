import SurfaceAudit.CommandLine.Arguments
import SurfaceAudit.Config.Load
import SurfaceAudit.Discovery
import SurfaceAudit.Log
import SurfaceAudit.Report.Document
import SurfaceAudit.Report.Output
import SurfaceAudit.Report.Overview
import SurfaceAudit.Rules.Bundled
import SurfaceAudit.Rules.Loader

/-!
# The program

A run of the program: the command line is read, the configuration is loaded, and one plugin or all
plugins below a directory are analysed and reported. The program ends with a code; what it prints
and the files it writes are part of the state of the run.
-/

namespace SurfaceAudit

/-- What a run finds and leaves behind. -/
structure Console where
  /-- The files. -/
  disk : Disk
  /-- What was printed. -/
  printed : Text := []
  /-- The lines of complaint. -/
  complaints : Text := []
  /-- The log, once it is set up. -/
  log : Option Log := none

/-- How a run ends. -/
inductive Ending where
  /-- With a code. -/
  | exit (code : Nat)
  /-- With a fault that nothing deals with. -/
  | fault (f : Fault)
  deriving DecidableEq

/-- What surrounds a run. -/
structure Surroundings where
  /-- The environment. -/
  environment : Config.Environment
  /-- The time of the run. -/
  time : Text

/-- A step of a run, which may end it. -/
abbrev Step := ExceptT Ending (StateM Console)

namespace Step

/-- Prints a text. -/
def print (t : Text) : Step Unit := modify fun c => { c with printed := c.printed ++ t }

/-- Prints a line. -/
def printLine (t : Text) : Step Unit := print (t ++ [.scalar '\n'])

/-- Complains in a line. -/
def complain (t : Text) : Step Unit :=
  modify fun c => { c with complaints := c.complaints ++ t ++ [.scalar '\n'] }

/-- Ends the run. -/
def exit {α : Type} (code : Nat) : Step α := throw (.exit code)

/-- A step that may fail. -/
def attempt {α : Type} (a : Attempt α) : Step α :=
  ExceptT.mk (pure (a.mapError .fault))

/-- A step that changes the files and may fail. -/
def change {α : Type} (f : Disk → Attempt α × Disk) : Step α := do
  let c ← get
  let (outcome, disk) := f c.disk
  set { c with disk }
  attempt outcome

/-- The files. -/
def disk : Step Disk := do
  let c ← get
  return c.disk

/-- Deals with a fault of a step. -/
def handle {α : Type} (step : Step α) (f : Fault → Step α) : Step α :=
  tryCatch step fun
    | .fault e => f e
    | e => throw e

end Step

namespace Program

open CommandLine

/-- The name of the program. -/
def name : Text := "compat-scanner"

/-- Reads a command line; a wrong one ends the run, and so does asking for help. -/
def arguments {κ : Type} (g : Grammar κ) (name : Text) (given : List Text) : Step (Reading κ) :=
  match g.read given with
  | .ok r => return r
  | .error .help => do
    Step.printLine (("usage: " : Text) ++ name ++ " [options]")
    Step.exit 0
  | .error (.complaint c) => do
    Step.complain (name ++ ": error: " ++ c.message)
    Step.exit 2

/-! ## The rules -/

/-- The store of the bundled rules. -/
def bundled : RuleStore := ⟨[], Bundled.tables, Bundled.tables, []⟩

/-- The lines on how many rules there are. -/
def statisticsLines (s : RuleStore) : List Text :=
  Report.heading "RULE STATISTICS" ++
    (s.statistics.map (·.2)).zipWith (fun n label => label ++ Text.ofNat n)
      (List.map Text.ofString
        ["Command rules:    ", "Binaries:         ", "Script rules:     ",
          "Import rules:     ", "Restricted tools: ", "Loading errors:   "])

/-- The line of a rule for commands. -/
def ruleLine (r : CommandRule) : Text :=
  ("  " : Text) ++ Text.padLeft 4 (Text.ofInt r.priority) ++ "  " ++ Text.padRight 14 r.signal ++
    " " ++ Text.padRight 36 r.template.name ++ " " ++ r.pattern

/-- The names of a table, in order. -/
def namesLine (label : Text) (t : SignalTable) : Text :=
  label ++ Text.join ", " (Text.sort (t.map (·.1)))

/-- The line above the rules for commands. -/
def rulesHeading (count : Nat) : Text :=
  ("Command rules (" : Text) ++ Text.ofNat count ++ ", first match wins):"

/-- The lines on the rules. -/
def rulesLines (t : RuleTables) : List Text :=
  [[], rulesHeading t.commands.length, []] ++ t.commands.map ruleLine ++
    [[], namesLine "Binaries: " t.binaries, namesLine "Script extensions: " t.scripts,
      namesLine "Restricted tools: " t.tools]

/-- Writes the rules to a file, or prints them. -/
def exportRules (s : RuleStore) (file : Text) : Step Unit := do
  let text ← Step.attempt (Json.write s.toValue)
  if file == ("-" : Text) then Step.printLine text
  else
    let d ← Step.disk
    -- The path is used as it was given, so that its end counts too.
    Step.attempt (d.checkEnd file)
    Step.change fun d => Report.write d file ⟨text.flatMap Utf8.encodePoint, none⟩
    Step.printLine (("Rules exported to: " : Text) ++ file)

/-- The command for the rules. -/
def rules (given : List Text) : Step Unit := do
  let r ← arguments rulesGrammar (name ++ " rules") given
  if r.has .reload then Step.printLine "Rules reloaded from disk."
  if r.has .stats then Step.print (Report.printed (statisticsLines bundled))
  else
    match r.text? .export with
    | some file => exportRules bundled file
    | none => Step.print (Report.printed (rulesLines bundled.tables))

/-! ## Scans -/

/-- A scan that is set up. -/
structure Scan where
  /-- The path that is looked at. -/
  path : Text
  /-- The configuration. -/
  config : Config
  /-- More is told. -/
  verbose : Bool
  /-- Less is told. -/
  quiet : Bool
  /-- The time of the run. -/
  time : Text

namespace Scan

/-- What analyses plugins. -/
def analyzer (s : Scan) : Analyzer := { config := s.config, rules := Bundled.tables }

/-- The format of the report is a given one. -/
def hasFormat (s : Scan) (format : Text) : Bool := s.config.output.format.isText format

/-- The report goes to a file. -/
def hasFile (s : Scan) : Bool := s.config.output.file.isTrue

/-- The overview is printed: unless it would get between the report and whoever reads that. -/
def showsOverview (s : Scan) : Bool := !s.quiet && (s.hasFormat "text" || s.hasFile)

/-- The path of the file that the report goes to. -/
def filePath (s : Scan) : Attempt Text :=
  match s.config.output.file with
  | .text t => .ok t
  | v => .error (.kind (.notPath v.kindName))

/-- Writes a draft to the file of the report and says so. -/
def save (s : Scan) (format : Text) (draft : Report.Draft) : Step Unit := do
  let file ← Step.attempt s.filePath
  let _ ← Step.change fun d => Report.writeTo d file draft
  if !s.quiet then
    Step.print (Report.printed [[], format ++ (" report saved to: " : Text) ++ file])

/-- Reports a document. -/
def reportDocument (s : Scan) (document : Attempt Value) : Step Unit := do
  let v ← Step.attempt document
  if s.hasFile then s.save "JSON" (Report.documentDraft v)
  else
    let text ← Step.attempt (Json.write v)
    Step.printLine text

/-- Reports a table. -/
def reportTable (s : Scan) (rs : List Result) : Step Unit :=
  if s.hasFile then s.save "CSV" (Report.tableDraft rs)
  else Step.print (Report.table rs)

/-- Reports results in the format of the configuration. -/
def report (s : Scan) (document : Attempt Value) (rs : List Result) : Step Unit := do
  if s.hasFormat "text" then return ()
  else if s.hasFormat "json" then s.reportDocument document
  else if s.hasFormat "csv" then s.reportTable rs
  else
    let shown ← Step.attempt s.config.output.format.shown
    throw (.fault (.reportFormat shown))

/-- A result passes the gate. -/
def passes (s : Scan) (r : Result) : Attempt Bool :=
  (s.config.gateFailures r.analyzed).map List.isEmpty

/-- Scans one plugin. The code tells whether it passes the gate. -/
def single (s : Scan) : Step Nat := do
  let d ← Step.disk
  if !(← Step.attempt (d.contains (Path.tidy s.path))) then
    Step.complain (("Error: Plugin path does not exist: " : Text) ++ s.path)
    return 1
  -- The path is complained about as it was given, and used without what does not count in it.
  let path := Path.tidy s.path
  let r ← Step.attempt (s.analyzer.analyze d path)
  if s.showsOverview then Step.print (Report.overview r)
  s.report (Report.document s.config s.time r path) [r]
  let passed ← Step.attempt (s.passes r)
  return if passed then 0 else 1

/-- The code of a sweep after a further entry: it is kept if the entry has a result that passes the
gate. -/
def codeAfter (s : Scan) (code : Nat) (e : BatchEntry) : Attempt Nat :=
  match e.result with
  | none => .ok 1
  | some r => (s.passes r).map fun passed => if passed then code else 1

/-- The lines on the plugins that were found. -/
def discoveryLines (ps : List DiscoveredPlugin) : List Text :=
  Report.heading (("DISCOVERY: Found " : Text) ++ Text.ofNat ps.length ++ " plugin(s)") ++
    ps.zipIdx.map fun (p, i) =>
      ("  " : Text) ++ Text.ofNat (i + 1) ++ ". " ++ p.name ++ " @ " ++ p.path

/-- Scans all plugins below a directory. The code tells whether all have a result that passes the
gate. -/
def sweep (s : Scan) : Step Nat := do
  let d ← Step.disk
  if !(← Step.attempt (d.contains (Path.tidy s.path))) then
    Step.complain (("Error: Path does not exist: " : Text) ++ s.path)
    return 1
  let plugins ← Step.attempt (Discovery.plugins d (Path.tidy s.path))
  if plugins.isEmpty then
    Step.complain "No plugins discovered in the given path"
    return 1
  if s.showsOverview then Step.print (Report.printed (discoveryLines plugins))
  let es ← Step.attempt (s.analyzer.analyzeMany d (plugins.map (·.path)) none)
  let rs := es.filterMap (·.result)
  if s.showsOverview then
    if s.verbose then Step.print (rs.flatMap Report.overview)
    Step.print (Report.sweepOverview es)
  s.report (Report.sweepDocument s.config s.time es) rs
  Step.attempt (es.foldlM s.codeAfter 0)

end Scan

/-- Loads the configuration. What is wrong with it ends the run. -/
def configuration (environment : Config.Environment) (r : Reading ScanKey) : Step Config := do
  let d ← Step.disk
  let upper := layer r
  let path := (r.value? .config).map Value.text
  Step.handle
    (Step.attempt (Config.load environment d (path.getD .null)
      (if upper.isEmpty then .null else .map upper)))
    fun f => do
      if f.isAboutInput then
        Step.complain (("Configuration error: " : Text) ++ f.message)
        Step.exit 1
      else throw (.fault f)

/-- The names of a path without steps up, from the root down; links are not looked at. -/
def lexicalNames (d : Disk) (path : Text) : List Text :=
  Disk.withoutUps (d.startOf path ++ Path.names path)

/-- Opens the file of the log, which is made if it is missing. -/
def openLog (d : Disk) (path : Text) : Attempt Unit × Disk :=
  let plain := Path.absolute (lexicalNames d path)
  match Disk.nameFault? plain with
  | some f => (.error f, d)
  | none =>
    -- A log that is there already is added to and so keeps its text.
    match d.find? plain with
    | some (.file _) => (.ok (), d)
    | _ =>
      match d.write plain [] with
      | .ok d => (.ok (), d)
      | .error f => (.error f, d)

/-- Sets up the log. -/
def setUpLog (settings : LoggingSettings) (verbose quiet : Bool) : Step Unit := do
  let level := Log.levelFor settings.level verbose quiet
  let file? ← if settings.file.isTrue then do
      let path ← Step.attempt (Log.pathOf settings.file)
      Step.change fun d => openLog d path
      pure (some path)
    else pure none
  modify fun c => { c with log := some ⟨level, file?⟩ }

/-- The words of a fault that ends a scan. -/
def faultLine (verbose : Bool) (f : Fault) : Text :=
  if f.isAboutInput then ("Validation error: " : Text) ++ f.message
  else if verbose then ("Error: " : Text) ++ f.message
  else "Error: An error occurred during scanning. Use --verbose for details."

/-- Scans what the command line asks for. -/
def scan (w : Surroundings) (r : Reading ScanKey) (path : Text) : Step Unit := do
  let config ← configuration w.environment r
  let quiet := r.has .quiet
  let verbose := r.has .verbose || config.output.verbose.isTrue
  setUpLog config.logging verbose quiet
  let s : Scan := ⟨path, config, verbose, quiet, w.time⟩
  let code ← Step.handle (if r.has .discover then s.sweep else s.single) fun f => do
    Step.complain (faultLine verbose f)
    return 1
  Step.exit code

/-- The lines on the modes. -/
def modeLines : List Text :=
  Mode.all.map fun m => ("  " : Text) ++ Text.padRight 12 m.name ++ " " ++ m.description

/-- Runs the program. -/
def steps (w : Surroundings) (given : List Text) : Step Unit := do
  if given.head? == some ("rules" : Text) then rules (given.drop 1)
  else
    let r ← arguments scanGrammar name given
    if r.has .listModes then Step.print (Report.printed modeLines)
    else
      match r.word.filter (!·.isEmpty) with
      | some path => scan w r path
      | none =>
        Step.complain (name ++ ": error: " ++ Complaint.message .pathMissing)
        Step.exit 2

/-- Runs the program on a disk. -/
def run (w : Surroundings) (d : Disk) (given : List Text) : Ending × Console :=
  match (steps w given).run.run { disk := d } with
  | (.ok (), c) => (.exit 0, c)
  | (.error e, c) => (e, c)

end Program

end SurfaceAudit
