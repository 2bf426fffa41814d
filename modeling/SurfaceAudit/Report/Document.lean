import SurfaceAudit.Config.Basic
import SurfaceAudit.Scan.Analysis

/-!
# Report documents

The report on a plugin as a value with a JSON form: when and how it was looked at, the result, and
what the gate says. The report on a sweep counts plugins and verdicts and holds the single reports.
-/

namespace SurfaceAudit.Report

/-- The version of the program. -/
def version : Text := "0.1.0"

/-- When and how a plugin was looked at. -/
def metadata (c : Config) (time : Text) (path : Text) : Value :=
  let always : List (Text × Value) :=
    [("scanner_version", .text version), ("scan_timestamp", .text time), ("scan_mode", c.mode)]
  let place : List (Text × Value) :=
    if path.isEmpty then [] else [("plugin_path", .text (Path.lastName path))]
  named (always ++ place)

/-- What the gate says about a result. -/
structure GateReport where
  /-- The verdict from which on a plugin fails, as it is set. -/
  failOn : Value
  /-- The surfaces that count. -/
  targets : List Target
  /-- The surfaces on which the result fails, with the verdicts there. -/
  failures : List (Target × Verdict)

namespace GateReport

/-- The result passes. -/
def passed (g : GateReport) : Bool := g.failures.isEmpty

/-- The report as a mapping. -/
def toValue (g : GateReport) : Value :=
  named
    [("fail_on", g.failOn), ("targets", .list (g.targets.map fun t => .text t.name)),
      ("passed", .bool g.passed),
      ("failures", .list (g.failures.map fun (t, v) =>
        named [("target", .text t.name), ("verdict", .text v.name)]))]

end GateReport

/-- The gate is asked about a result. -/
def gate (c : Config) (r : Result) : Attempt GateReport := do
  let failures ← c.gateFailures r.analyzed
  let targets ← c.gateTargets
  return ⟨c.gate.failOn, targets, failures⟩

/-- The report on a result about which the gate was asked. -/
def resultDocument (c : Config) (time : Text) (path : Text) (r : Result) (g : GateReport) : Value :=
  named [("metadata", metadata c time path), ("result", r.toValue), ("gate", g.toValue)]

/-- The report on a result; the path of the plugin may be empty. -/
def document (c : Config) (time : Text) (r : Result) (path : Text) : Attempt Value := do
  let g ← gate c r
  return resultDocument c time path r g

/-- The report on an entry of a sweep that has no result. -/
def errorDocument (e : BatchEntry) : Value :=
  named [("metadata", named [("plugin_path", .text e.path)]),
    ("error", (e.error.map Value.text).getD .null)]

/-- The accounts of a sweep, which are kept entry by entry. -/
structure Accounts where
  /-- The reports on the entries. -/
  scans : List Value := []
  /-- The number of entries without a result. -/
  errors : Nat := 0
  /-- The number of results that fail the gate. -/
  gateFailures : Nat := 0
  /-- The number of results with a verdict on a surface. -/
  verdicts : Target → Verdict → Nat := fun _ _ => 0

namespace Accounts

/-- The accounts with a further entry. -/
def enter (c : Config) (time : Text) (a : Accounts) (e : BatchEntry) : Attempt Accounts :=
  match e.result with
  | none => .ok { a with scans := a.scans ++ [errorDocument e], errors := a.errors + 1 }
  | some r => do
    let g ← gate c r
    return ⟨a.scans ++ [resultDocument c time e.path r g], a.errors,
      if g.passed then a.gateFailures else a.gateFailures + 1,
      fun t v => if r.analyzed.on t = v then a.verdicts t v + 1 else a.verdicts t v⟩

/-- The accounts of a number of entries as a mapping. -/
def toValue (a : Accounts) (total : Nat) : Value :=
  named
    [("total_scans", .int total), ("analyzed_count", .int (total - a.errors)),
      ("error_count", .int a.errors), ("gate_failures", .int a.gateFailures),
      ("by_target", named (Target.all.map fun t =>
        (t.name, named (Verdict.all.map fun v => (v.name, .int (a.verdicts t v))))))]

end Accounts

/-- The report on a sweep. -/
def sweepDocument (c : Config) (time : Text) (es : List BatchEntry) : Attempt Value := do
  let a ← es.foldlM (Accounts.enter c time) {}
  return named
    [("multi_scan", .bool true), ("metadata", metadata c time []),
      ("aggregate", a.toValue es.length), ("scans", .list a.scans)]

end SurfaceAudit.Report
