import SurfaceAudit.Value.Basic
import SurfaceAudit.Fault

/-!
# Merging mappings

A mapping is laid over another: where both hold a mapping under a key, these are merged in turn;
elsewhere the upper one wins. The depth to which that goes on is limited, since mappings that
contain themselves may be laid over one another; below the limit the upper one wins as well.
-/

namespace SurfaceAudit.Value

/-- The value of a key among entries. -/
def get? (entries : List (Value × Value)) (key : Value) : Option Value :=
  (entries.find? (·.1.sameKey key)).map (·.2)

/-- A value laid over what was there before, given the way to merge mappings. -/
def laidOver (merge : List (Value × Value) → List (Value × Value) → List (Value × Value))
    (old : Option Value) (v : Value) : Value :=
  match old.bind entries?, v.entries? with
  | some lower, some upper => .map (merge lower upper)
  | _, _ => v

/-- The entries of a mapping laid over those of another, with mappings merged to a depth. -/
def mergeTo : Nat → List (Value × Value) → List (Value × Value) → List (Value × Value)
  | 0, _, upper => upper
  | depth + 1, base, upper =>
    upper.foldl (fun done e => put done e.1 (laidOver (mergeTo depth) (get? done e.1) e.2)) base

/-- The depth to which mappings are merged. It stands for the end of a stack: the settings that a
program reads are nested a few levels deep, and only mappings that hold mappings a thousand levels
down, or themselves, on both sides would be merged any further. -/
def mergeDepth : Nat := 1000

/-- The entries of a mapping laid over those of another. -/
def mergeEntries (base upper : List (Value × Value)) : List (Value × Value) :=
  mergeTo mergeDepth base upper

/-- A value laid over another. Only mappings can be merged; but nothing is as good as laid over a
list. -/
def merge (base upper : Value) : Attempt Value :=
  match base.layer with
  | .map entries =>
    match upper.entries? with
    | some more => .ok (.map (mergeEntries entries more))
    | none => .error (.partMissing upper.kindName "items")
  | .list items =>
    match upper.entries? with
    | some [] => .ok (.list items)
    | some _ => .error (.kind (.badIndex "list"))
    | none => .error (.partMissing upper.kindName "items")
  | .set items =>
    match upper.entries? with
    | some [] => .ok (.set items)
    | some _ => .error (.kind (.badIndex "set"))
    | none => .error (.partMissing upper.kindName "items")
  | v => .error (.partMissing v.kindName "copy")

end SurfaceAudit.Value
