import SurfaceAudit.Markdown.Frontmatter
import SurfaceAudit.Plugin.Listing

/-!
# The contents of a plugin

The manifest of a plugin and its files, read as far as their kind needs it: documents have fields
before their text, configurations are JSON. Files that cannot be read are noted and keep their
place.
-/

namespace SurfaceAudit

/-- A file of a plugin. -/
structure PluginFile where
  /-- The path in the plugin. -/
  path : Text
  /-- What it holds. -/
  kind : FileKind
  /-- The text, if it was read. -/
  content : Option Text := none
  /-- The value of a configuration, or nothing. -/
  data : Value := .null
  /-- The fields of a document. -/
  fields : Value := .map []

/-- The contents of a plugin. -/
structure Contents where
  /-- The path of the plugin. -/
  path : Text
  /-- The manifest. -/
  manifest : Manifest
  /-- The files in the order of their paths. -/
  files : List PluginFile

/-- The files of a kind. -/
def Contents.ofKind (c : Contents) (k : FileKind) : List PluginFile := c.files.filter (·.kind == k)

namespace Plugin

/-- The text of a file, unless it is too large or unreadable. -/
def textOf (p : Plugin) (d : Disk) (relative : Text) : Noting (Option Text) := do
  match d.read (p.pathOf relative) with
  | .error (.file defect path) =>
    Noting.add [.unreadable relative (.file defect path)]
    return none
  | .error f => throw f
  | .ok bytes =>
    -- The size counts before the text does: a large file is never decoded.
    if p.sizeLimit < bytes.length then
      Noting.add [.size bytes.length relative]
      return none
    else
      match Utf8.read bytes with
      | .error defect =>
        Noting.add [.unreadable relative (.bytes defect)]
        return none
      | .ok t => return some t

/-- The value of a configuration, or nothing if it is not JSON. -/
def dataOf (relative content : Text) : Noting Value := do
  match Json.read content with
  | .ok v => return v
  | .error (.defect defect) =>
    Noting.add [.notJson relative defect]
    return .null
  | .error (.digits n) => throw (.tooManyDigits (some n))

/-- A file whose text was read. -/
def fileWith (relative : Text) (kind : FileKind) (content : Text) : Noting PluginFile := do
  match kind with
  | .markdown =>
    let (fields, _) ← Noting.ofAttempt (Markdown.split content)
    return { path := relative, kind, content := some content, fields }
  | .hooks | .servers =>
    let data ← dataOf relative content
    return { path := relative, kind, content := some content, data }
  | _ => return { path := relative, kind, content := some content }

/-- Reads a file of a plugin. -/
def file (p : Plugin) (d : Disk) (relative : Text) : Noting PluginFile := do
  let kind ← Noting.ofAttempt (p.kindOf relative)
  if kind == .other then return { path := relative, kind }
  else
    match ← p.textOf d relative with
    | none => return { path := relative, kind }
    | some content => fileWith relative kind content

/-- Reads a plugin. -/
def contents (p : Plugin) (d : Disk) : Noting Contents := do
  let manifest ← Noting.ofAttempt (p.manifest d)
  let paths ← p.collect d
  let files ← paths.mapM (p.file d)
  return ⟨p.path, manifest, files⟩

end Plugin

end SurfaceAudit
