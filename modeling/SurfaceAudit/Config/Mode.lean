import SurfaceAudit.Text.Case
import SurfaceAudit.Value.Written

/-!
# Scan modes

A mode is a profile of settings that apply where nothing else is set. Names of modes are read
without regard to case, and an unknown name means the balanced mode.
-/

namespace SurfaceAudit

/-- The scan modes. -/
inductive Mode where
  /-- Anything short of compatible fails. -/
  | strict
  /-- Only what is incompatible fails. -/
  | balanced
  /-- Imports are not looked at, and nothing fails. -/
  | permissive
  deriving DecidableEq, Inhabited

namespace Mode

/-- All modes. -/
def all : List Mode := [.strict, .balanced, .permissive]

/-- The name of a mode. -/
def name : Mode → Text
  | .strict => "strict"
  | .balanced => "balanced"
  | .permissive => "permissive"

/-- What a mode is for. -/
def description : Mode → Text
  | .strict => "All scanners; fail on needs-review or worse. For marketplace approval."
  | .balanced => "All scanners; fail on incompatible only. Default."
  | .permissive => "No import scanning, never fails. For quick surveys."

/-- The settings for scanners that turn all of them on. -/
def allScanners : Value :=
  .map ((["declaration", "frontmatter", "code_block", "script", "script_import", "hook", "mcp"] :
    List Text).map fun n => (.text n, .bool true))

/-- The settings of a mode. -/
def profile : Mode → List (Value × Value)
  | .strict =>
    [(.text "scanners", allScanners),
      (.text "gate", .map [(.text "fail_on", .text "needs-review")])]
  | .balanced =>
    [(.text "scanners", allScanners),
      (.text "gate", .map [(.text "fail_on", .text "incompatible")])]
  | .permissive =>
    [(.text "scanners", .map [(.text "script_import", .bool false)]),
      (.text "gate", .map [(.text "fail_on", .null)])]

/-- The mode with a name. -/
def ofText (t : Text) : Mode := (all.find? (·.name == t.lower)).getD .balanced

/-- The mode that a value names. -/
def ofValue (v : Value) : Attempt Mode := v.shown.map ofText

end Mode

end SurfaceAudit
