import SurfaceAudit.CommandLine.Switch
import SurfaceAudit.Config.Basic
import SurfaceAudit.Config.Mode

/-!
# Arguments of the program

The options of the program and those of its command for the rules. Options on the command line
become the uppermost layer of the configuration.
-/

namespace SurfaceAudit.CommandLine

/-- What the options of a scan are for. -/
inductive ScanKey where
  | help
  | discover
  | workers
  | format
  | outputFile
  | config
  | mode
  | listModes
  | failOn
  | target
  | verbose
  | quiet
  deriving DecidableEq

/-- The options of a scan. -/
def scanSwitches : List (Switch ScanKey) :=
  [⟨.help, ["-h", "--help"], .nothing⟩,
    ⟨.discover, ["--discover"], .nothing⟩,
    ⟨.workers, ["--workers", "-w"], .integer⟩,
    ⟨.format, ["--format", "-o"], .choice ["text", "json", "csv"]⟩,
    ⟨.outputFile, ["--output-file", "-f"], .text⟩,
    ⟨.config, ["--config"], .text⟩,
    ⟨.mode, ["--mode"], .choice (Mode.all.map Mode.name)⟩,
    ⟨.listModes, ["--list-modes"], .nothing⟩,
    ⟨.failOn, ["--fail-on"], .choice [Verdict.needsReview.name, Verdict.incompatible.name]⟩,
    ⟨.target, ["--target", "-t"], .choice (Target.all.map Target.name)⟩,
    ⟨.verbose, ["--verbose", "-v"], .nothing⟩,
    ⟨.quiet, ["--quiet", "-q"], .nothing⟩]

/-- How the command line of a scan is read. -/
def scanGrammar : Grammar ScanKey := ⟨scanSwitches, (· == .help), true⟩

/-- What the options of the command for the rules are for. -/
inductive RulesKey where
  | help
  | list
  | stats
  | reload
  | export
  deriving DecidableEq

/-- The options of the command for the rules. -/
def rulesSwitches : List (Switch RulesKey) :=
  [⟨.help, ["-h", "--help"], .nothing⟩,
    ⟨.list, ["--list", "-l"], .nothing⟩,
    ⟨.stats, ["--stats", "-s"], .nothing⟩,
    ⟨.reload, ["--reload", "-r"], .nothing⟩,
    ⟨.export, ["--export", "-e"], .text⟩]

/-- How the command line of the command for the rules is read. -/
def rulesGrammar : Grammar RulesKey := ⟨rulesSwitches, (· == .help), false⟩

namespace Reading

variable {κ : Type} [DecidableEq κ]

/-- An option is given. -/
def has (r : Reading κ) (k : κ) : Bool := r.given.any (·.1 == k)

/-- The values of an option, in order. -/
def values (r : Reading κ) (k : κ) : List Text := (r.given.filter (·.1 == k)).map (·.2)

/-- The value of an option; the last one counts. -/
def value? (r : Reading κ) (k : κ) : Option Text := (r.values k).getLast?

/-- The value of an option that is not empty. -/
def text? (r : Reading κ) (k : κ) : Option Text := (r.value? k).filter (!·.isEmpty)

/-- The integer that is the value of an option. -/
def int? (r : Reading κ) (k : κ) : Option Int :=
  (r.value? k).bind fun t => (Number.readInt 10 t).toOption

end Reading

/-- A setting under a name, if it is given. -/
def setting? (name : Text) (v : Option Value) : List (Value × Value) :=
  (v.map fun v => (Value.text name, v)).toList

/-- Settings under a name, if there are any. -/
def group? (name : Text) (settings : List (Value × Value)) : List (Value × Value) :=
  if settings.isEmpty then [] else [(.text name, .map settings)]

/-- The layer of the configuration that the options of a scan make. -/
def layer (r : Reading ScanKey) : List (Value × Value) :=
  let targets := r.values .target
  setting? "scan_mode" ((r.value? .mode).map .text) ++
    group? "performance" (setting? "workers" ((r.int? .workers).map .int)) ++
    group? "output"
      (setting? "format" ((r.value? .format).map .text) ++
        setting? "output_file" ((r.text? .outputFile).map .text) ++
        setting? "verbose" (if r.has .verbose then some (.bool true) else none)) ++
    group? "gate"
      (setting? "fail_on" ((r.value? .failOn).map .text) ++
        setting? "targets"
          (if targets.isEmpty then none else some (.list (targets.map .text))))

end SurfaceAudit.CommandLine
