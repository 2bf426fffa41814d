import SurfaceAudit.Plugin.Manifest
import SurfaceAudit.Rank

/-!
# Discovery

Finds the plugins in a tree of directories. A directory with a manifest is a plugin, and nothing
below it is looked at; links are not followed, and neither are directories that hold no sources.
-/

namespace SurfaceAudit

/-- A plugin that was found. -/
structure DiscoveredPlugin where
  /-- The path of the plugin. -/
  path : Text
  /-- The name in its manifest, or else that of its directory. -/
  name : Text
  deriving DecidableEq

namespace DiscoveredPlugin

/-- The name and the path in one text. -/
def shown (p : DiscoveredPlugin) : Text :=
  ("DiscoveredPlugin(" : Text) ++ p.name ++ " @ " ++ p.path ++ ")"

end DiscoveredPlugin

namespace Discovery

/-- The names of directories that are not looked into. -/
def skippedNames : List Text :=
  [".git", ".svn", ".hg", "node_modules", "__pycache__", ".tox", ".venv", "venv", ".mypy_cache",
    ".pytest_cache", ".ruff_cache", "dist", "build", Manifest.directoryName]

/-- The number of directories on the way to a plugin. -/
def depthLimit : Nat := 20

/-- The path of the manifest in the directory at a path. -/
def manifestBelow (d : Disk) (path : Text) : Attempt (Option Text) :=
  d.firstFile? id (Manifest.places.map (Path.below path))

/-- The path of a directory below the root of a search. -/
def pathFrom (root below : List Text) : Text := Path.absolute (root ++ below)

/-- The name in a manifest, if it can be read and has one. -/
def nameIn? (d : Disk) (manifest : Text) : Attempt (Option Text) :=
  match d.read manifest with
  | .error _ => .ok none
  | .ok bytes =>
    match Utf8.read bytes with
    | .error _ => .ok none
    | .ok t =>
      match Json.read t with
      | .error (.defect _) => .ok none
      | .error (.digits n) => .error (.tooManyDigits (some n))
      | .ok v => .ok (v.entries?.bind Manifest.nameOf?)

/-- The plugin in the directory at a path, given its manifest. -/
def plugin (d : Disk) (path manifest : Text) : Attempt DiscoveredPlugin :=
  (nameIn? d manifest).map fun name? => ⟨path, name?.getD (Path.lastName path)⟩

/-- A plugin with the names of its directory below the root of the search. -/
abbrev Found := List Text × DiscoveredPlugin

mutual

/-- The plugins in a directory that is given by its names below the root of the search. -/
def pluginsIn (d : Disk) (root below : List Text) : Node → Attempt (List Found)
  | .directory es =>
    let path := pathFrom root below
    -- A directory whose path is too long cannot be opened, and is passed over.
    if Disk.pathLimit < Disk.byteCount path || depthLimit < below.length then .ok []
    else do
      match ← manifestBelow d path with
      -- A plugin holds no further plugins.
      | some manifest => return [(below, ← plugin d path manifest)]
      | none => pluginsAmong d root below es
  | _ => .ok []

/-- The plugins in the directories among entries. -/
def pluginsAmong (d : Disk) (root below : List Text) : List (Text × Node) → Attempt (List Found)
  | [] => .ok []
  | (name, n) :: r => do
    let here ← if skippedNames.contains name then pure []
      else pluginsIn d root (below ++ [name]) n
    return here ++ (← pluginsAmong d root below r)

end

/-- The text by which the plugins are put in order: the path below the root of the search. -/
def orderKey (below : List Text) : Text := if below.isEmpty then "." else Path.ofNames below

/-- The plugins that were found, in the order of their paths. -/
def inOrder (found : List Found) : List DiscoveredPlugin :=
  (Rank.sort (fun a b => Text.le (orderKey a.1) (orderKey b.1)) found).map (·.2)

/-- The plugins below a path, in the order of their paths. -/
def plugins (d : Disk) (path : Text) : Attempt (List DiscoveredPlugin) := do
  let root ← d.plainNames path
  match ← d.look (Path.absolute root) with
  | none => return []
  | some n => (pluginsIn d root [] n).map inOrder

end Discovery

end SurfaceAudit
