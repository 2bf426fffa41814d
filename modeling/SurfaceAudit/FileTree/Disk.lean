import SurfaceAudit.Fault
import SurfaceAudit.FileTree.Node
import SurfaceAudit.FileTree.Path

/-!
# Disks

A tree of files with a current directory. Links are followed when a path is looked up; the plain
form of a path, in which no link and no step up is left, exists for paths that lead nowhere too.
-/

namespace SurfaceAudit

/-- A tree of files and a current directory, which is given by its names from the root down. -/
structure Disk where
  /-- The root directory. -/
  root : Node
  /-- The current directory. -/
  current : List Text

namespace Disk

/-- The number of links that are followed on the way to a file. -/
def linkLimit : Nat := 40

/-- The number of bytes that a name may have. -/
def nameLimit : Nat := 255

/-- The number of bytes that a path may have. -/
def pathLimit : Nat := 4095

/-- The number of bytes of a path or a name. -/
def byteCount (t : Text) : Nat := (t.flatMap Utf8.encodePoint).length

/-- The end of a way through the tree: a place without links on its way, and what is there. -/
abbrev Reached := List Text × Option Node

/-- Follows names from a directory on, given how to go on where a link leads. Only the last name of
the place reached may be missing in its directory. -/
def followWith (root : Node) (jump : List Text → List Text → Except FileDefect Reached) :
    List Text → List Text → Except FileDefect Reached
  | here, [] => .ok (here, root.at? here)
  | here, name :: r =>
    match root.at? here with
    | none => .error .missing
    | some (.file _) => .error .throughFile
    | some (.link _) => .error .throughFile
    | some (.directory es) =>
      if name == Path.up then followWith root jump here.dropLast r
      else if nameLimit < byteCount name then .error .nameTooLong
      else match (es.find? (·.1 == name)).map (·.2) with
        | none => if r.isEmpty then .ok (here ++ [name], none) else .error .missing
        | some (.link target) =>
          -- A link is replaced by the names it leads to, from its own directory on.
          jump (if Path.isAbsolute target then [] else here) (Path.names target ++ r)
        | some _ => followWith root jump (here ++ [name]) r

/-- Follows names from a directory on, through a number of links at most. -/
def follow (root : Node) : Nat → List Text → List Text → Except FileDefect Reached
  | 0 => followWith root fun _ _ => .error .linkLoop
  | links + 1 => followWith root (follow root links)

/-- Where a path starts. -/
def startOf (d : Disk) (path : Text) : List Text :=
  if Path.isAbsolute path then [] else d.current

/-- What keeps a path from being a name of a file at all: a null, or a surrogate. -/
def nameFault? (path : Text) : Option Fault :=
  match Utf8.nameObstacle? path with
  | some o => some (.unencodable o)
  | none => if path.any (·.val == 0) then some .nullInPath else none

/-- The place that a path leads to. -/
def locate (d : Disk) (path : Text) : Except FileDefect Reached :=
  if pathLimit < byteCount path then .error .nameTooLong
  else follow d.root linkLimit (d.startOf path) (Path.names path)

/-- What there is at a path. -/
def find? (d : Disk) (path : Text) : Option Node :=
  if (nameFault? path).isSome then none
  else match d.locate path with
    | .ok (_, node) => node
    | .error _ => none

/-- What there is at a path, where one that is too long is a fault of its own. -/
def look (d : Disk) (path : Text) : Attempt (Option Node) :=
  match nameFault? path, d.locate path with
  | none, .error .nameTooLong => .error (.file .nameTooLong path)
  | _, _ => .ok (d.find? path)

/-- There is something at a path. -/
def contains (d : Disk) (path : Text) : Attempt Bool := (d.look path).map Option.isSome

/-- There is a directory at a path. -/
def hasDirectory (d : Disk) (path : Text) : Attempt Bool :=
  (d.look path).map fun n => (n.map Node.isDirectory).getD false

/-- There is a file at a path. -/
def hasFile (d : Disk) (path : Text) : Attempt Bool :=
  (d.look path).map fun n => (n.map Node.isFile).getD false

/-- The first of some names whose path is that of a file. -/
def firstFile? (d : Disk) (pathOf : Text → Text) : List Text → Attempt (Option Text)
  | [] => .ok none
  | name :: r => do
    if ← d.hasFile (pathOf name) then return some name else d.firstFile? pathOf r

/-- The first of some paths at which there is something. -/
def firstThere? (d : Disk) : List Text → Attempt (Option Text)
  | [] => .ok none
  | path :: r => do
    if ← d.contains path then return some path else d.firstThere? r

/-- A link in a directory leads to a directory. -/
def linkIsDirectory (d : Disk) (here : List Text) (target : Text) : Bool :=
  let start := if Path.isAbsolute target then [] else here
  match follow d.root (linkLimit - 1) start (Path.names target) with
  | .ok (_, some (.directory _)) => true
  | _ => false

/-- The bytes of the file at a path. -/
def read (d : Disk) (path : Text) : Attempt (List UInt8) :=
  match nameFault? path with
  | some f => .error f
  | none =>
    match d.locate path with
    | .ok (_, some (.file content)) => .ok content
    | .ok (_, some _) => .error (.file .directory path)
    | .ok (_, none) => .error (.file .missing path)
    | .error e => .error (.file e path)

/-- The disk with the bytes of the file at a path set, which is made if it is missing. -/
def write (d : Disk) (path : Text) (content : List UInt8) : Attempt Disk :=
  match nameFault? path with
  | some f => .error f
  | none =>
    match d.locate path with
    | .ok (_, some (.directory _)) => .error (.file .directory path)
    | .ok (place, _) => .ok { d with root := Node.put (.file content) place d.root }
    | .error e => .error (.file e path)

/-- What keeps something that must be a directory from being opened as a file. -/
def directoryDefect (d : Disk) (path : Text) (names : List Text) : FileDefect :=
  match follow d.root linkLimit (d.startOf path) names with
  | .ok (_, some (.directory _)) => .directory
  | .ok (_, some _) => .throughFile
  | .ok (_, none) => .missing
  | .error e => e

/-- What keeps a path from being opened as a file to be written, because of how it ends: one that
ends in a single dot can only be that of a directory, and one that ends in a slash is not even
looked at, but only what it is in. -/
def endDefect? (d : Disk) (path : Text) : Option FileDefect :=
  let last := Path.lastPart path
  if last == ("." : Text) then some (d.directoryDefect path (Path.names path))
  else if path.getLast? == some (.scalar '/') && last != Path.up then
    some (d.directoryDefect path (Path.names path).dropLast)
  else none

/-- Checks how a path ends that a file is to be written to, once it can be the path of anything. -/
def checkEnd (d : Disk) (path : Text) : Attempt Unit :=
  if (nameFault? path).isSome || pathLimit < byteCount path then .ok ()
  else match d.endDefect? path with
    | some e => .error (.file e path)
    | none => .ok ()

/-- The number of steps that the links of a tree can add to a path. -/
def linkSteps : Node → Nat
  | .file _ => 0
  | .link target => (Path.names target).length + 1
  | .directory es => go es
where
  /-- `linkSteps` of all entries. -/
  go : List (Text × Node) → Nat
    | [] => 0
    | e :: r => linkSteps e.2 + go r

/-- The links met on the way, by their places; where one leads is known once it is followed. -/
abbrev Links := List (List Text × Option (List Text))

/-- Makes a path plain: the names so far are plain, those left are not. The answer says whether no
circle of links was met; the names after a circle stay as they are. -/
def plainFrom (root : Node) : Nat → List Text → List Text → Links → (List Text × Bool × Links)
  | 0, here, rest, links => (here ++ rest, false, links)
  | _, here, [], links => (here, true, links)
  | bound + 1, here, name :: r, links =>
    if name == Path.up then plainFrom root bound here.dropLast r links
    else
      let place := here ++ [name]
      match root.at? place with
      | some (.link target) =>
        match (links.find? (·.1 == place)).map (·.2) with
        | some (some known) => plainFrom root bound known r links
        -- The link is met again while it is being followed, so it goes round in a circle.
        | some none => (place ++ r, false, links)
        | none =>
          let start := if Path.isAbsolute target then [] else here
          match plainFrom root bound start (Path.names target) ((place, none) :: links) with
          | (reached, true, links) =>
            plainFrom root bound reached r ((place, some reached) :: links)
          | (reached, false, links) => (reached ++ r, false, links)
      | _ => plainFrom root bound place r links

/-- The names without steps up, each of which takes the name before it away. -/
def withoutUps (names : List Text) : List Text :=
  names.foldl (fun done n => if n == Path.up then done.dropLast else done ++ [n]) []

/-- The plain form of a path, as names from the root down: no link and no step up is left in it, as
far as it leads somewhere. -/
def plainNames (d : Disk) (path : Text) : Attempt (List Text) :=
  match nameFault? (Path.tidy path) with
  | some f => .error f
  | none =>
    let names := Path.names path
    match plainFrom d.root (linkSteps d.root + names.length + 1) (d.startOf path) names [] with
    | (reached, true, _) => .ok reached
    | (reached, false, _) =>
      let place := withoutUps reached
      match follow d.root linkLimit [] place with
      | .error .linkLoop => .error (.circularPath (Path.absolute place))
      | _ => .ok place

/-- The plain form of a path. -/
def plain (d : Disk) (path : Text) : Attempt Text := (d.plainNames path).map Path.absolute

end Disk

end SurfaceAudit
