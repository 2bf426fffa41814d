import SurfaceAudit.Evidence

/-!
# Results

What is known about a plugin after its files were looked at.
-/

namespace SurfaceAudit

/-- How many files of which kind a plugin has. -/
structure Summary where
  /-- The number of files. -/
  total : Int
  /-- The number of documents. -/
  skills : Int
  /-- The number of scripts. -/
  scripts : Int
  /-- The number of hook configurations. -/
  hooks : Int
  /-- The number of server configurations. -/
  servers : Int
  deriving DecidableEq, Inhabited

/-- The counts as a mapping. -/
def Summary.toValue (s : Summary) : Value :=
  .map [(.text "totalFiles", .int s.total), (.text "skillFiles", .int s.skills),
    (.text "scriptFiles", .int s.scripts), (.text "hookFiles", .int s.hooks),
    (.text "mcpConfigs", .int s.servers)]

/-- The result for a plugin. -/
structure Result where
  /-- The name of the plugin. -/
  plugin : Text
  /-- The version of the plugin, if it has one. -/
  version : Option Text
  /-- The surfaces that the author lists, if there is a list. It does not bear on the verdicts. -/
  declared : Option (List Text)
  /-- The verdicts. -/
  analyzed : Impact
  /-- The evidence for the verdicts. -/
  evidence : List Evidence
  /-- The counts of files. -/
  summary : Summary
  /-- What could not be looked at. -/
  errors : List Text
  deriving DecidableEq, Inhabited

namespace Result

/-- The plugin works on a surface. -/
def isCompatible (r : Result) (t : Target) : Bool := r.analyzed.on t == .compatible

/-- The most restrictive verdict. -/
def worstVerdict (r : Result) : Verdict := Verdict.worst (Target.all.map r.analyzed.on)

/-- A list of texts as a value. -/
def texts (ts : List Text) : Value := .list (ts.map .text)

/-- The result as a mapping; what is missing has no entry, and neither has an empty list of
errors. -/
def toValue (r : Result) : Value :=
  .map ([(.text "plugin", .text r.plugin)] ++
    (r.version.map fun v => (Value.text "version", Value.text v)).toList ++
    (r.declared.map fun d => (Value.text "declared", texts d)).toList ++
    [(.text "analyzed", r.analyzed.toValue),
      (.text "evidence", .list (r.evidence.map (·.toValue))),
      (.text "summary", r.summary.toValue)] ++
    (if r.errors.isEmpty then [] else [(.text "errors", texts r.errors)]))

end Result

end SurfaceAudit
