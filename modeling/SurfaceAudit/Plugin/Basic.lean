import SurfaceAudit.Config.Basic
import SurfaceAudit.FileTree.Disk
import SurfaceAudit.Text.Case
import SurfaceAudit.Value.Container

/-!
# Plugins on a disk

A plugin is a directory of a disk and the way its files are told apart. The directory is fixed when
the plugin is opened, whether there is one or not. Paths inside the plugin are relative to it.
-/

namespace SurfaceAudit

/-- A plugin that is open. -/
structure Plugin where
  /-- The directory, by its names from the root down. -/
  directory : List Text
  /-- How files are told apart. -/
  settings : FileSettings
  /-- The greatest size of a file that is read. -/
  sizeLimit : Int

/-- What a file of a plugin holds, by its path. -/
inductive FileKind where
  /-- A document. -/
  | markdown
  /-- A script. -/
  | script
  /-- A hook configuration. -/
  | hooks
  /-- A server configuration. -/
  | servers
  /-- Anything else. -/
  | other
  deriving DecidableEq, Inhabited

namespace FileKind

/-- All kinds. -/
def all : List FileKind := [.markdown, .script, .hooks, .servers, .other]

/-- The name of a kind. -/
def name : FileKind → Text
  | .markdown => "markdown"
  | .script => "script"
  | .hooks => "hooks"
  | .servers => "mcp"
  | .other => "other"

/-- The kind of a file that is neither a document nor a script. -/
def ofName (path extension : Text) : FileKind :=
  if path == ("hooks.json" : Text) then .hooks
  else if path.startsWith "hooks/" && extension == (".json" : Text) then .hooks
  else if path == (".mcp.json" : Text) then .servers
  else .other

/-- The kind of a file. The extensions of documents come before those of scripts. -/
def ofPath (s : FileSettings) (path : Text) : Attempt FileKind := do
  let extension := (Path.extension path).lower
  if ← s.markdownExtensions.holdsText extension then return .markdown
  else if ← s.scriptExtensions.holdsText extension then return .script
  else return ofName path extension

end FileKind

namespace Plugin

/-- Opens a plugin. -/
def open? (d : Disk) (path : Text) (settings : FileSettings) : Attempt Plugin := do
  let directory ← d.plainNames path
  let units ← settings.maxFileSize.toInt
  return ⟨directory, settings, units * 1024⟩

/-- The path of the directory. -/
def path (p : Plugin) : Text := Path.absolute p.directory

/-- The path of a file of the plugin. -/
def pathOf (p : Plugin) (relative : Text) : Text :=
  Path.absolute (p.directory ++ Path.names relative)

/-- The kind of a file. -/
def kindOf (p : Plugin) (relative : Text) : Attempt FileKind :=
  FileKind.ofPath p.settings relative

end Plugin

end SurfaceAudit
