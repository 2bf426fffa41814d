import SurfaceAudit.Fault

/-!
# Notes

What was left out when a plugin was looked at, and why. Steps that take notes may end with a fault;
the notes taken until then are kept.
-/

namespace SurfaceAudit

/-- Something that was left out. -/
inductive Note where
  /-- A directory was passed over. -/
  | directory (path : Text)
  /-- A link was passed over. -/
  | link (path : Text)
  /-- A file is too large. -/
  | size (bytes : Nat) (path : Text)
  /-- A file cannot be read. -/
  | unreadable (path : Text) (defect : ReadDefect)
  /-- A configuration is not JSON. -/
  | notJson (path : Text) (defect : Json.Defect)
  /-- A hook configuration is no object. -/
  | hooksShape (path : Text)
  /-- A server configuration is no object. -/
  | serversShape (path : Text)
  /-- A scanner failed. -/
  | scanner (label : Text) (fault : Fault)
  deriving DecidableEq

namespace Note

/-- The words for what was left out. -/
def message : Note → Text
  | .directory path => ("Skipped directory (not scanned): " : Text) ++ path
  | .link path => ("Skipping symlink: " : Text) ++ path
  | .size bytes path =>
    ("File too large (" : Text) ++ Text.ofNat bytes ++ " bytes): " ++ path
  | .unreadable path d => ("Error reading file " : Text) ++ path ++ ": " ++ d.message
  | .notJson path d => ("Invalid JSON in " : Text) ++ path ++ ": " ++ d.message
  | .hooksShape path =>
    ("Unrecognized hooks config in " : Text) ++ path ++ ": expected an object"
  | .serversShape path =>
    ("Unrecognized MCP config in " : Text) ++ path ++ ": expected an object"
  | .scanner label f => ("Scanner " : Text) ++ label ++ " failed: " ++ f.message

end Note

/-- A step that takes notes and may fail. -/
abbrev Noting := ExceptT Fault (StateM (List Note))

namespace Noting

/-- A step that takes no notes. -/
def ofAttempt {α : Type} (a : Attempt α) : Noting α := ExceptT.mk (pure a)

/-- Takes notes. -/
def add (ns : List Note) : Noting Unit := modify (· ++ ns)

/-- The outcome of a step that starts with notes, and the notes after it. -/
def runFrom {α : Type} (step : Noting α) (notes : List Note) : Attempt α × List Note :=
  step.run.run notes

end Noting

end SurfaceAudit
