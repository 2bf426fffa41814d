import SurfaceAudit.Json.Reader
import SurfaceAudit.Plugin.Basic

/-!
# Manifests

A plugin has a manifest in one of two places: a JSON object with a name, and perhaps a version and a
list of surfaces.
-/

namespace SurfaceAudit

/-- The manifest of a plugin. -/
structure Manifest where
  /-- The name of the plugin. -/
  name : Text
  /-- The version, if there is one. -/
  version : Option Text
  /-- The surfaces that are listed, if there is a list. -/
  targets : Option (List Text)
  /-- The path of the manifest in the plugin. -/
  path : Text
  /-- The whole manifest. -/
  raw : Value

namespace Manifest

/-- The name of the directory that holds the manifest and is no content. -/
def directoryName : Text := ".claude-plugin"

/-- The places of the manifest, in the order in which they are looked at. -/
def places : List Text := [".claude-plugin/plugin.json", "plugin.json"]

/-- The name that a manifest gives to its plugin: a text that is not empty. -/
def nameOf? (entries : List (Value × Value)) : Option Text :=
  (Value.field entries "name").text?.filter (!·.isEmpty)

/-- The manifest at a place that its entries describe. -/
def ofEntries (name place : Text) (entries : List (Value × Value)) : Attempt Manifest := do
  let targets ← match (Value.field entries "targets").items? with
    | some items => some <$> items.mapM Value.shown
    | none => pure none
  return ⟨name, (Value.field entries "version").text?, targets, place, .map entries⟩

end Manifest

namespace Plugin

/-- The place of the manifest that is in use. -/
def manifestPlace? (p : Plugin) (d : Disk) : Attempt (Option Text) :=
  d.firstFile? p.pathOf Manifest.places

/-- The text of a manifest. -/
def manifestText (p : Plugin) (d : Disk) (place : Text) : Attempt Text :=
  let path := p.pathOf place
  match d.read path with
  | .error (.file defect name) => .error (.manifest (.unreadable path (.file defect name)))
  | .error f => .error f
  | .ok bytes =>
    match Utf8.read bytes with
    | .error defect => .error (.manifest (.unreadable path (.bytes defect)))
    | .ok t => .ok t

/-- The manifest at a place. -/
def manifestAt (p : Plugin) (d : Disk) (place : Text) : Attempt Manifest := do
  let path := p.pathOf place
  let text ← p.manifestText d place
  match Json.read text with
  | .error (.defect defect) => .error (.manifest (.json path defect))
  | .error (.digits n) => .error (.tooManyDigits (some n))
  | .ok v =>
    match v.entries? with
    | none => .error (.manifest (.notObject path))
    | some entries =>
      match Manifest.nameOf? entries with
      | none => .error (.manifest (.noName path))
      | some name => Manifest.ofEntries name place entries

/-- The manifest of a plugin. -/
def manifest (p : Plugin) (d : Disk) : Attempt Manifest := do
  if ← d.hasDirectory p.path then
    match ← p.manifestPlace? d with
    | none => .error (.manifest (.noManifest p.path))
    | some place => p.manifestAt d place
  else .error (.manifest (.noDirectory p.path))

end Plugin

end SurfaceAudit
