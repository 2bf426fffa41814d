import SurfaceAudit.Fault
import SurfaceAudit.Text.Case
import SurfaceAudit.Value.Basic

/-!
# The log

The level from which on records are kept, and the names of loggers. The log itself is not modelled.
-/

namespace SurfaceAudit

/-- A log that is set up. -/
structure Log where
  /-- The level from which on records are kept: a number, or a truth value that counts as one. -/
  level : Value
  /-- The path of the file that records go to besides the screen. -/
  file? : Option Text := none

namespace Log

/-- The levels with names. -/
def levels : List (Text × Int) :=
  [("CRITICAL", 50), ("FATAL", 50), ("ERROR", 40), ("WARN", 30), ("WARNING", 30), ("INFO", 20),
    ("DEBUG", 10), ("NOTSET", 0)]

/-- The level with a name, which may be in small letters. -/
def named? (name : Text) : Option Int :=
  name.asciiUpper?.bind fun n => (levels.find? (·.1 == n)).map (·.2)

/-- The level for a setting. Being quiet goes before telling more, and both go before the setting.
-/
def levelFor (setting : Value) (verbose quiet : Bool) : Value :=
  if quiet then .int 40
  else if verbose then .int 10
  else
    match setting with
    | .int n => .int n
    | .bool b => .bool b
    | .text t => .int ((named? t).getD 30)
    | _ => .int 30

/-- The path of the file for a setting: a text, or the bytes of one. -/
def pathOf (setting : Value) : Attempt Text :=
  match setting with
  | .text t => .ok t
  | .bytes b => .ok (Utf8.name b)
  | v => .error (.kind (.notPath v.kindName))

/-- The number of places that records go to. -/
def outputs (l : Log) : Nat := 1 + l.file?.toList.length

/-- The name of the main logger. -/
def rootName : Text := "compat_scanner"

/-- The name of a logger, which is below the main one. -/
def loggerName (name : Option Text) : Text :=
  match name with
  | none => rootName
  | some n => if n.startsWith rootName then n else rootName ++ "." ++ n

end Log

end SurfaceAudit
