import SurfaceAudit.Yaml.Scalar

/-!
# Values of YAML documents

The value of a document is built from its graph of nodes. Collections are opened when they are met
and filled later, in the order in which they were opened, so that a collection may contain itself.
Mappings that are merged into a mapping come before its own entries. What goes wrong first decides
the failure, so the order of the work is part of the answer.
-/

namespace SurfaceAudit.Yaml

/-- What a node has become. Collections refer to the numbers of other nodes. -/
inductive Cell where
  /-- A value that is no collection. -/
  | value (v : Value)
  /-- A sequence. -/
  | list (items : List Nat)
  /-- A mapping. -/
  | map (entries : List (Value × Nat))
  /-- A set. -/
  | set (items : List Value)
  /-- A sequence of pairs. -/
  | pairs (items : List (Nat × Nat))
  deriving Inhabited

/-- The state of the building of a value. -/
structure Loader where
  /-- The nodes by number. -/
  nodes : Array Node
  /-- What the nodes have become so far. -/
  cells : Array (Option Cell)
  /-- The numbers of the collections opened and not yet filled, the last opened first. -/
  opened : List Nat

/-- A step of the building. -/
abbrev Loading := Except Failure Loader

namespace Loader

/-- The node with a number. -/
def node (l : Loader) (i : Nat) : Node := (l.nodes[i]?).getD default

/-- The tag of a node. -/
def tagOf (l : Loader) (i : Nat) : Tag :=
  match l.node i with
  | .scalar tag _ => tag
  | .sequence tag _ => tag
  | .mapping tag _ => tag

/-- The entries of a mapping node. -/
def entriesOf (l : Loader) (i : Nat) : Option (List (Nat × Nat)) :=
  match l.node i with
  | .mapping _ entries => some entries
  | _ => none

/-- The state with the entries of a mapping node replaced. -/
def setEntries (l : Loader) (i : Nat) (entries : List (Nat × Nat)) : Loader :=
  { l with nodes := l.nodes.setIfInBounds i (.mapping (l.tagOf i) entries) }

/-- The state in which a node that marks a value is a text. -/
def retag (l : Loader) (i : Nat) : Loader :=
  let n := match l.node i with
    | .scalar _ t => .scalar .str t
    | .sequence _ items => .sequence .str items
    | .mapping _ entries => .mapping .str entries
  { l with nodes := l.nodes.setIfInBounds i n }

mutual

/-- Puts the entries of merged mappings before the own entries of a mapping. A merge leaves the
mapping before it is followed, which bounds the depth by the number of merges. -/
def flatten (bound : Nat) (l : Loader) (i : Nat) : Loading :=
  match bound with
  | 0 => .error .malformed
  | bound + 1 => flattenFrom bound l i 0 []

/-- Goes through the entries of a mapping from a place on; the merged entries are given. -/
def flattenFrom (bound : Nat) (l : Loader) (i place : Nat) (merged : List (Nat × Nat)) :
    Loading :=
  match bound with
  | 0 => .error .malformed
  | bound + 1 => do
    let entries := (l.entriesOf i).getD []
    match entries[place]? with
    | none => return if merged.isEmpty then l else l.setEntries i (merged ++ entries)
    | some (k, v) =>
      if l.tagOf k == .merge then
        -- The merge goes first, since the merged mapping may be this one.
        let l := l.setEntries i (entries.eraseIdx place)
        match l.node v with
        | .mapping .. =>
          let l ← flatten bound l v
          flattenFrom bound l i place (merged ++ (l.entriesOf v).getD [])
        | .sequence _ items =>
          let (l, more) ← flattenAll bound l items []
          flattenFrom bound l i place (merged ++ more)
        | .scalar .. => .error .malformed
      else if l.tagOf k == .value then flattenFrom bound (l.retag k) i (place + 1) merged
      else flattenFrom bound l i (place + 1) merged

/-- The entries of several mappings to be merged, those of later mappings before those of earlier
ones. -/
def flattenAll (bound : Nat) (l : Loader) (items : List Nat) (later : List (Nat × Nat)) :
    Except Failure (Loader × List (Nat × Nat)) :=
  match bound with
  | 0 => .error .malformed
  | bound + 1 =>
    match items with
    | [] => return (l, later)
    | v :: r => do
      match l.node v with
      | .mapping .. =>
        let l ← flatten bound l v
        flattenAll bound l r ((l.entriesOf v).getD [] ++ later)
      | _ => .error .malformed

end

/-- A bound for the merging: every step of it uses an entry or an element of the document. -/
def mergeBound (l : Loader) : Nat :=
  let size := (l.nodes.toList.map fun
    | .scalar .. => 1
    | .sequence _ items => items.length + 2
    | .mapping _ entries => entries.length + 2).foldl (· + ·) 0
  size * size + 4

/-- The text of a scalar node, or of the value that stands for a mapping. -/
def scalarText (l : Loader) : Nat → Nat → Except Failure Text
  | 0, _ => .error .malformed
  | bound + 1, i =>
    match l.node i with
    | .scalar _ t => .ok t
    | .sequence .. => .error .malformed
    | .mapping _ entries =>
      match entries.find? fun e => l.tagOf e.1 == .value with
      | some (_, v) => l.scalarText bound v
      | none => .error .malformed

/-- The value of a node under a tag for scalars. -/
def scalarValue (l : Loader) (i : Nat) : Except Failure Value := do
  let t ← l.scalarText (l.nodes.size + 1) i
  match l.node i, l.tagOf i with
  | .scalar .., tag => Scalar.value tag t
  -- A moment is read off the node itself and not off the value that stands for it.
  | _, .timestamp => .error (.fault (.kind (.notText "list")))
  | _, tag => Scalar.value tag t

/-- The state in which a node has become something. -/
def become (l : Loader) (i : Nat) (c : Cell) : Loader :=
  { l with cells := l.cells.setIfInBounds i (some c) }

/-- The state in which a node has become a collection that is still empty. -/
def openAs (l : Loader) (i : Nat) (c : Cell) : Loader :=
  { l.become i c with opened := i :: l.opened }

/-- Meets a node: a scalar gets its value and a collection is opened, unless that is done. -/
def meet (l : Loader) (i : Nat) : Loading :=
  match (l.cells[i]?).bind id with
  | some _ => .ok l
  | none =>
    match l.tagOf i with
    | .seq => .ok (l.openAs i (.list []))
    | .map => .ok (l.openAs i (.map []))
    | .set => .ok (l.openAs i (.set []))
    | .omap => .ok (l.openAs i (.pairs []))
    | .pairs => .ok (l.openAs i (.pairs []))
    | .merge => .error .malformed
    | .value => .error .malformed
    | .unknown => .error .malformed
    | _ => do
      let v ← l.scalarValue i
      return l.become i (.value v)

/-- The key that a node has become, unless it is a collection. -/
def keyOf (l : Loader) (i : Nat) : Except Failure Value :=
  match (l.cells[i]?).bind id with
  | some (.value v) => .ok v
  | _ => .error .malformed

/-- Sets a key among entries: a new one comes last, and one that is there keeps its place. -/
def putEntry (entries : List (Value × Nat)) (k : Value) (v : Nat) : List (Value × Nat) :=
  if entries.any (·.1.sameKey k) then
    entries.map fun e => if e.1.sameKey k then (e.1, v) else e
  else entries ++ [(k, v)]

/-- Meets keys and values in order and gathers them. -/
def meetEntries : Loader → List (Nat × Nat) → List (Value × Nat) →
    Except Failure (Loader × List (Value × Nat))
  | l, [], done => .ok (l, done)
  | l, (k, v) :: r, done => do
    let l ← l.meet k
    let key ← l.keyOf k
    let l ← l.meet v
    meetEntries l r (putEntry done key v)

/-- Meets the pairs of a sequence of pairs, each a mapping with one entry. -/
def meetPairs : Loader → List Nat → List (Nat × Nat) → Except Failure (Loader × List (Nat × Nat))
  | l, [], done => .ok (l, done.reverse)
  | l, i :: r, done =>
    match l.entriesOf i with
    | some [(k, v)] => do
      let l ← l.meet k
      let l ← l.meet v
      meetPairs l r ((k, v) :: done)
    | _ => .error .malformed

/-- The entries of a mapping, merged ones included. -/
def fillEntries (l : Loader) (i : Nat) : Except Failure (Loader × List (Value × Nat)) := do
  match l.entriesOf i with
  | none => .error .malformed
  | some _ =>
    let l ← flatten l.mergeBound l i
    l.meetEntries ((l.entriesOf i).getD []) []

/-- Fills a collection. -/
def fill (l : Loader) (i : Nat) : Loading := do
  match l.tagOf i, l.node i with
  | .seq, .sequence _ items =>
    let l ← items.foldlM meet l
    return l.become i (.list items)
  | .map, _ =>
    let (l, entries) ← l.fillEntries i
    return l.become i (.map entries)
  | .set, _ =>
    let (l, entries) ← l.fillEntries i
    return l.become i (.set (entries.map (·.1)))
  | .omap, .sequence _ items | .pairs, .sequence _ items =>
    let (l, pairs) ← l.meetPairs items []
    return l.become i (.pairs pairs)
  | _, _ => .error .malformed

/-- Fills the collections that are opened, round by round; each node is opened once at most. -/
def fillAll : Nat → Loader → Loading
  | 0, l => .ok l
  | bound + 1, l =>
    match l.opened.reverse with
    | [] => .ok l
    -- What is opened in this round is filled in the next one.
    | round => do
      let l ← round.foldlM fill { l with opened := [] }
      fillAll bound l

end Loader

/-- What all nodes of a document have become. -/
abbrev Cells := Array (Option Cell)

namespace Cells

/-- What a node has become. -/
def get (cells : Cells) (i : Nat) : Cell := ((cells[i]?).bind id).getD default

/-- The numbers that a collection refers to. -/
def parts (cells : Cells) (i : Nat) : List Nat :=
  match cells.get i with
  | .value _ => []
  | .set _ => []
  | .list items => items
  | .map entries => entries.map (·.2)
  | .pairs items => items.flatMap fun (k, v) => [k, v]

/-- The kind of a collection. -/
def shape (cells : Cells) (i : Nat) : Shape :=
  match cells.get i with
  | .map _ => .map
  | .set _ => .set
  | _ => .list

/-- Marks what can be reached from some numbers. -/
def reach (cells : Cells) : Nat → List Nat → Array Bool → Array Bool
  | 0, _, seen => seen
  | _, [], seen => seen
  | bound + 1, i :: r, seen =>
    if seen[i]?.getD true then reach cells bound r seen
    else reach cells bound (cells.parts i ++ r) (seen.setIfInBounds i true)

/-- The number of references of all collections. -/
def references (cells : Cells) : Nat :=
  ((List.range cells.size).map fun i => (cells.parts i).length).foldl (· + ·) 0

/-- The numbers of the collections that contain themselves. -/
def knots (cells : Cells) : List Nat :=
  let bound := cells.references + cells.size + 1
  let none := Array.replicate cells.size false
  (List.range cells.size).filter fun i =>
    match cells.parts i with
    | [] => false
    | parts => (cells.reach bound parts none)[i]?.getD false

/-- The value of a collection, given those of its parts. -/
def assemble (part : Nat → Value) : Cell → Value
  | .value v => v
  | .list items => .list (items.map part)
  | .map entries => .map (entries.map fun (k, v) => (k, part v))
  | .set items => .set items
  | .pairs items => .list (items.map fun (k, v) => .tuple [part k, part v])

/-- The values of nodes that are known already. -/
abbrev Known := Array (Option Value)

/-- The value of a collection, given the way to those of its parts. -/
def linkedParts (cells : Cells) (part : Nat → StateM Known Value) (i : Nat) :
    StateM Known Value := do
  match cells.get i with
  | .value v => return v
  | .list items => return .list (← items.mapM part)
  | .map entries => return .map (← entries.mapM fun (k, v) => return (k, ← part v))
  | .set items => return .set items
  | .pairs items => return .list (← items.mapM fun (k, v) => return .tuple [← part k, ← part v])

/-- A collection drawn without links: one that is being drawn already is cut. -/
def draw (cells : Cells) : Nat → List Nat → Nat → Value
  | 0, _, _ => .null
  | bound + 1, path, i =>
    assemble
      (fun j => if j == i || path.contains j then .again (cells.shape j)
        else cells.draw bound (i :: path) j)
      (cells.get i)

/-- The value of a node, with links for the collections that contain themselves. Each node is looked
at once, however many aliases refer to it. -/
def linked (cells : Cells) (knots : List Nat) : Nat → Nat → StateM Known Value
  | 0, _ => return .null
  | bound + 1, i => do
    match ((← MonadState.get)[i]?).bind id with
    | some v => return v
    | none =>
      match knots.idxOf? i with
      | some k => return .link k
      | none =>
        let v ← cells.linkedParts (cells.linked knots bound) i
        modify fun known => known.setIfInBounds i (some v)
        return v

/-- The value of a node. -/
def value (cells : Cells) (root : Nat) : Value :=
  let bound := cells.size + 1
  let none : Known := Array.replicate cells.size .none
  match cells.knots with
  | [] => (cells.linked [] bound root none).1
  | knots =>
    let bodies := knots.map fun i =>
      (cells.draw bound [] i, (cells.linkedParts (cells.linked knots bound) i none).1)
    (cells.linked knots bound root none).1.tie bodies

end Cells

/-- The value of a document. -/
def Graph.value (g : Graph) : Except Failure Value := do
  let start : Loader := ⟨g.nodes, Array.replicate g.nodes.size none, []⟩
  let l ← start.meet g.root
  let l ← Loader.fillAll (g.nodes.size + 1) l
  return Cells.value l.cells g.root

/-- The value of the only document of a text; nothing, if there is none. -/
def load (t : Text) : Except Failure Value := do
  match ← graph? Tag.suggested t with
  | none => return .null
  | some g => g.value

end SurfaceAudit.Yaml
