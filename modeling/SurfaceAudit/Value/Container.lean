import SurfaceAudit.Value.Written

/-!
# Values as containers

What a value holds and what it consists of, when any kind of value may stand where a sequence or a
mapping is meant: a text holds its parts and consists of its code points, a mapping holds and
consists of its keys.
-/

namespace SurfaceAudit.Value

/-- What a value consists of. -/
def elements (v : Value) : Attempt (List Value) :=
  match v.layer with
  | .list items => .ok items
  | .tuple items => .ok items
  | .set items => .ok items
  | .map entries => .ok (entries.map (·.1))
  | .text t => .ok (t.map fun p => .text [p])
  | .bytes b => .ok (b.map fun u => .int u.toNat)
  | v => .error (.kind (.notIterable v.kindName))

/-- What a value consists of; nothing for a value that counts as false. -/
def elementsIfTrue (v : Value) : Attempt (List Value) := if v.isTrue then v.elements else .ok []

/-- The value holds a text: as an element, as a key, or as a part of a text. -/
def holdsText (v : Value) (t : Text) : Attempt Bool :=
  match v.layer with
  | .list items => .ok (items.any (·.isText t))
  | .tuple items => .ok (items.any (·.isText t))
  | .set items => .ok (items.any (·.isText t))
  | .map entries => .ok (entries.any (·.1.isText t))
  | .text s => .ok (Text.holds t s)
  | .bytes _ => .error (.kind (.notText "bytes"))
  | v => .error (.kind (.notContainer v.kindName))

/-- The value, if it can be a key. -/
def asKey (v : Value) : Attempt Value :=
  if v.isHashable then .ok v else .error (.kind (.unhashable v.kindName))

end SurfaceAudit.Value
