import SurfaceAudit.Text.Point

/-!
# Files and directories

A tree of files, symbolic links and directories. The entries of a directory are in the order of
their names, which `Node.put` keeps.
-/

namespace SurfaceAudit

/-- A file, a symbolic link or a directory. -/
inductive Node where
  /-- A file with its bytes. -/
  | file (content : List UInt8)
  /-- A link to a path. -/
  | link (target : Text)
  /-- A directory with its entries in the order of their names. -/
  | directory (entries : List (Text × Node))
  deriving Inhabited

namespace Node

/-- The node is a directory. -/
def isDirectory : Node → Bool
  | .directory _ => true
  | _ => false

/-- The node is a link. -/
def isLink : Node → Bool
  | .link _ => true
  | _ => false

/-- The node is a file. -/
def isFile : Node → Bool
  | .file _ => true
  | _ => false

/-- The entries of a directory; other nodes have none. -/
def entries : Node → List (Text × Node)
  | .directory es => es
  | _ => []

/-- The entry with a name. -/
def entry? (n : Node) (name : Text) : Option Node := (n.entries.find? (·.1 == name)).map (·.2)

/-- The node some names further down, no link followed. -/
def at? (n : Node) : List Text → Option Node
  | [] => some n
  | name :: r => (n.entry? name).bind (·.at? r)

/-- The entries with one set, which takes its place in the order. -/
def putEntry (name : Text) (node : Node) : List (Text × Node) → List (Text × Node)
  | [] => [(name, node)]
  | e :: r =>
    if e.1 == name then (name, node) :: r
    else if Text.le name e.1 then (name, node) :: e :: r
    else e :: putEntry name node r

/-- The tree with a node put some names down. Directories on the way are made; where something else
is in the way, nothing changes. -/
def put (node : Node) : List Text → Node → Node
  | [], _ => node
  | name :: r, .directory es =>
    let inner := ((es.find? (·.1 == name)).map (·.2)).getD (.directory [])
    .directory (putEntry name (put node r inner) es)
  | _ :: _, other => other

/-- The tree without the node some names down. -/
def remove : List Text → Node → Node
  | [name], .directory es => .directory (es.filter (·.1 != name))
  | name :: r, .directory es =>
    .directory (es.map fun e => if e.1 == name then (name, remove r e.2) else e)
  | _, other => other

end Node

end SurfaceAudit
