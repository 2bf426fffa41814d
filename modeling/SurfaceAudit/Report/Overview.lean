import SurfaceAudit.Scan.Analysis

/-!
# Overviews

What is printed for people: the verdicts on a plugin with the evidence for them, and one line for
each plugin of a sweep.
-/

namespace SurfaceAudit.Report

/-- Lines with their ends. -/
def printed (ls : List Text) : Text := ls.flatMap fun l => l ++ [.scalar '\n']

/-- A line across the page. -/
def ruler (c : Char) : Text := List.replicate 60 (.scalar c)

/-- A heading between two lines, after an empty line. -/
def heading (t : Text) : List Text := [[], ruler '=', t, ruler '=']

/-- The sign of a verdict. -/
def marker : Verdict → Text
  | .compatible => "✓"
  | .needsReview => "?"
  | .incompatible => "✗"

/-- The name and version of a plugin. -/
def title (r : Result) : Text :=
  r.plugin ++ match r.version with
    | some v => if v.isEmpty then [] else (" v" : Text) ++ v
    | none => []

/-- The line of a verdict. -/
def verdictLine (i : Impact) (t : Target) : Text :=
  ("  " : Text) ++ marker (i.on t) ++ " " ++ t.name.padRight 16 ++ " " ++ (i.on t).name

/-- The line of the surfaces that the author lists. -/
def declaredLine (ts : List Text) : Text :=
  let listed := Text.join ", " ts
  ("  Declared targets: " : Text) ++ if listed.isEmpty then ("(none)" : Text) else listed

/-- The line of the counts of files. -/
def countLine (s : Summary) : Text :=
  ("Files: " : Text) ++ Text.ofInt s.total ++ " total, " ++ Text.ofInt s.skills ++ " markdown, " ++
    Text.ofInt s.scripts ++ " scripts, " ++ Text.ofInt s.hooks ++ " hook configs, " ++
    Text.ofInt s.servers ++ " MCP configs"

/-- The verdicts of an impact that restrict a surface. -/
def impactText (i : Impact) : Text :=
  Text.join ", " ((Target.all.filter fun t => i.on t != .compatible).map fun t =>
    t.name ++ "=" ++ (i.on t).name)

/-- The lines of a piece of evidence. -/
def evidenceLines (e : Evidence) : List Text :=
  let place := match e.line with
    | some n => e.file ++ ":" ++ Text.ofInt n
    | none => e.file
  [("  [" : Text) ++ e.source.name ++ "] " ++ e.signal, ("      " : Text) ++ place,
    ("      " : Text) ++ e.detail, ("      Impact: " : Text) ++ impactText e.impact]

/-- A list with its length, if it is not empty. -/
def listing (name : Text) (n : Nat) (below body : List Text) : List Text :=
  if n == 0 then []
  else [[], name ++ (" (" : Text) ++ Text.ofNat n ++ ("):" : Text)] ++ below ++ body

/-- The overview of a result. -/
def overview (r : Result) : Text :=
  printed (heading (("COMPATIBILITY: " : Text) ++ title r) ++
    Target.all.map (verdictLine r.analyzed) ++ (r.declared.map declaredLine).toList ++
    [[], countLine r.summary] ++
    listing "EVIDENCE" r.evidence.length [ruler '-'] (r.evidence.flatMap evidenceLines) ++
    listing "ERRORS" r.errors.length [] (r.errors.map fun e => ("  - " : Text) ++ e) ++
    [ruler '='])

/-- Cells of a sweep, one for each surface. -/
def cells (f : Target → Text) : Text :=
  Text.join "  " (Target.all.map fun t => (f t).padRight 14)

/-- The line of an entry of a sweep. -/
def entryLine (e : BatchEntry) : Text :=
  ("  " : Text) ++ match e.result with
    | some r => Text.padRight 28 (r.plugin.take 27) ++ cells fun t => (r.analyzed.on t).name
    | none => Text.padRight 28 (Path.lastName e.path) ++ "ERROR: " ++ e.error.getD "None"

/-- The overview of a sweep. -/
def sweepOverview (es : List BatchEntry) : Text :=
  printed (heading (("SWEEP SUMMARY: " : Text) ++ Text.ofNat es.length ++ " plugin(s)") ++
    [("  " : Text) ++ Text.padRight 28 "plugin" ++ cells Target.name] ++ es.map entryLine ++
    [ruler '='])

end SurfaceAudit.Report
