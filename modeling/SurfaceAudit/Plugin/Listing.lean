import SurfaceAudit.Plugin.Manifest
import SurfaceAudit.Plugin.Note

/-!
# The files of a plugin

A walk through the directories of a plugin finds its files. Links are not followed, the directory of
the manifest is passed over, and so are the directories that the settings name. In each directory
the notes on directories come first, then those on links, then what the kept directories hold.
-/

namespace SurfaceAudit

/-- What a walk finds. -/
structure Listing where
  /-- The files, in the order of the walk. -/
  files : List Text
  /-- What was passed over. -/
  notes : List Note
  deriving DecidableEq, Inhabited

namespace Listing

/-- Nothing found. -/
def empty : Listing := ⟨[], []⟩

/-- What is found first, and then. -/
def append (a b : Listing) : Listing := ⟨a.files ++ b.files, a.notes ++ b.notes⟩

instance : Append Listing := ⟨append⟩

/-- What a walk needs to know about names and links. -/
structure Guide where
  /-- The directories with the name are passed over. -/
  isSkipped : Text → Bool
  /-- The link in a directory leads to a directory. -/
  leadsToDirectory : List Text → Text → Bool

/-- A directory with a name is walked through. -/
def Guide.enters (g : Guide) (name : Text) : Bool :=
  name != Manifest.directoryName && !g.isSkipped name

/-- The path of a name in a directory that is given by its names. -/
def pathIn (here : List Text) (name : Text) : Text := Path.ofNames (here ++ [name])

/-- The note on an entry of a directory that is itself a directory. -/
def directoryNote? (g : Guide) (here : List Text) (e : Text × Node) : Option Note :=
  match e.2 with
  | .directory _ =>
    if e.1 != Manifest.directoryName && g.isSkipped e.1 then
      some (.directory (pathIn here e.1))
    else none
  | _ => none

/-- What an entry of a directory is that is no directory: a file, a link that is noted, or a link to
a directory. -/
def leaf (g : Guide) (here : List Text) (e : Text × Node) : Listing :=
  match e.2 with
  | .file _ => ⟨[pathIn here e.1], []⟩
  | .link target =>
    if g.leadsToDirectory here target then empty else ⟨[], [.link (pathIn here e.1)]⟩
  | .directory _ => empty

/-- What the entries of a directory are, without what is in its directories. -/
def leaves (g : Guide) (here : List Text) (es : List (Text × Node)) : Listing :=
  ⟨[], es.filterMap (directoryNote? g here)⟩ ++ (es.map (leaf g here)).foldr append empty

mutual

/-- What a walk through a directory finds; other nodes hold nothing. -/
def walk (g : Guide) (here : List Text) : Node → Listing
  | .directory es => leaves g here es ++ walkAll g here es
  | _ => empty

/-- What a walk through the kept directories among entries finds. -/
def walkAll (g : Guide) (here : List Text) : List (Text × Node) → Listing
  | [] => empty
  | (name, n) :: r =>
    (if g.enters name then walk g (here ++ [name]) n else empty) ++ walkAll g here r

end

end Listing

namespace Plugin

/-- The guide of a walk through a plugin, given what the settings name. -/
def guide (p : Plugin) (d : Disk) (skipped : List Value) : Listing.Guide where
  isSkipped name := skipped.any (·.isText name)
  leadsToDirectory here target := d.linkIsDirectory (p.directory ++ here) target

/-- What a walk through a plugin finds. -/
def listing (p : Plugin) (d : Disk) (skipped : List Value) : Listing :=
  match d.find? p.path with
  | some n => Listing.walk (p.guide d skipped) [] n
  | none => .empty

/-- The paths of the files that a walk finds, in order. The manifest in use is not among them. -/
def pathsIn (found : Listing) (manifest : Option Text) : List Text :=
  Text.sort (found.files.filter fun f => some f != manifest)

/-- Lists the files of a plugin by their paths, in order. -/
def collect (p : Plugin) (d : Disk) : Noting (List Text) := do
  let names ← Noting.ofAttempt p.settings.skipDirectories.elements
  let skipped ← Noting.ofAttempt (names.mapM Value.asKey)
  let manifest ← Noting.ofAttempt (p.manifestPlace? d)
  let found := p.listing d skipped
  Noting.add found.notes
  return pathsIn found manifest

end Plugin

end SurfaceAudit
