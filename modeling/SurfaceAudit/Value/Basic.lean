import SurfaceAudit.Calendar
import SurfaceAudit.Number.Binary64

/-!
# Values of data formats

A value as a JSON or YAML document gives it. Mappings keep the order of their entries. A container
that contains itself is a knot: the containers on its cycles are numbered, and a link inside them
stands for the container with that number. `Value.layer` shows the outermost layer of a knot as an
ordinary container, so that readers of values need not know about knots.
-/

namespace SurfaceAudit

/-- The kinds of containers. -/
inductive Shape where
  /-- A sequence. -/
  | list
  /-- A sequence of fixed length. -/
  | tuple
  /-- A set. -/
  | set
  /-- A mapping. -/
  | map
  deriving DecidableEq

/-- A value of a data format. -/
inductive Value where
  /-- Nothing. -/
  | null
  /-- A truth value. -/
  | bool (b : Bool)
  /-- An integer. -/
  | int (n : Int)
  /-- A floating point number. -/
  | real (x : Binary64)
  /-- A text. -/
  | text (t : Text)
  /-- A sequence of bytes. -/
  | bytes (b : List UInt8)
  /-- A day. -/
  | date (d : Calendar.Date)
  /-- A moment. -/
  | moment (m : Calendar.Moment)
  /-- A sequence. -/
  | list (items : List Value)
  /-- A sequence of fixed length. -/
  | tuple (items : List Value)
  /-- A set. -/
  | set (items : List Value)
  /-- A mapping with its entries in order. -/
  | map (entries : List (Value × Value))
  /-- In a drawing: a container that is being drawn already. -/
  | again (shape : Shape)
  /-- In a cell: the container with a number. -/
  | link (cell : Nat)
  /-- A container that contains itself: the one with the number `index` of the cells. Each cell
  holds a drawing of its container, cut where a container would be drawn inside itself, and its
  first layer. -/
  | knot (drawing : Value) (cells : List (Value × Value)) (index : Nat)
  deriving Inhabited

namespace Value

mutual

/-- The value with its links replaced by the knots that they stand for. -/
def tie (cells : List (Value × Value)) : Value → Value
  | .link i =>
    match cells[i]? with
    | some (drawing, _) => .knot drawing cells i
    | none => .null
  | .list items => .list (tieAll cells items)
  | .tuple items => .tuple (tieAll cells items)
  | .set items => .set (tieAll cells items)
  | .map entries => .map (tieEntries cells entries)
  | v => v

/-- `tie` for each value. -/
def tieAll (cells : List (Value × Value)) : List Value → List Value
  | [] => []
  | v :: r => tie cells v :: tieAll cells r

/-- `tie` for each key and value. -/
def tieEntries (cells : List (Value × Value)) : List (Value × Value) → List (Value × Value)
  | [] => []
  | (k, v) :: r => (tie cells k, tie cells v) :: tieEntries cells r

end

/-- The value with its outermost layer in sight. -/
def layer : Value → Value
  | .knot _ cells i =>
    match cells[i]? with
    | some (_, body) => tie cells body
    | none => .null
  | v => v

/-- The elements of a sequence. -/
def items? (v : Value) : Option (List Value) :=
  match v.layer with
  | .list items => some items
  | _ => none

/-- The entries of a mapping. -/
def entries? (v : Value) : Option (List (Value × Value)) :=
  match v.layer with
  | .map entries => some entries
  | _ => none

/-- The text of a text. -/
def text? : Value → Option Text
  | .text t => some t
  | _ => none

/-- The value is nothing. -/
def isNull : Value → Bool
  | .null => true
  | _ => false

/-- The value is a given text. -/
def isText (v : Value) (t : Text) : Bool := v.text? == some t

/-- The value of a text key among entries. -/
def lookup (entries : List (Value × Value)) (key : Text) : Option Value :=
  (entries.find? fun e => e.1.isText key).map (·.2)

/-- The value of a text key, nothing if the key is missing. -/
def field (entries : List (Value × Value)) (key : Text) : Value := (lookup entries key).getD .null

/-- The value counts as true: it is neither nothing, nor false, nor zero, nor empty. -/
def isTrue (v : Value) : Bool :=
  match v with
  | .null => false
  | .bool b => b
  | .int n => n != 0
  | .real x => !x.isZero
  | .text t => !t.isEmpty
  | .bytes b => !b.isEmpty
  | .list items => !items.isEmpty
  | .tuple items => !items.isEmpty
  | .set items => !items.isEmpty
  | .map entries => !entries.isEmpty
  | _ => true

/-- The name of the kind of a value. -/
def kindName (v : Value) : Text :=
  match v.layer with
  | .null => "NoneType"
  | .bool _ => "bool"
  | .int _ => "int"
  | .real _ => "float"
  | .text _ => "str"
  | .bytes _ => "bytes"
  | .date _ => "date"
  | .moment _ => "datetime"
  | .list _ => "list"
  | .tuple _ => "tuple"
  | .set _ => "set"
  | _ => "dict"

mutual

/-- The value can be a key: it is no sequence of variable length, no set and no mapping, and has
none among its parts. -/
def isHashable : Value → Bool
  | .list _ | .set _ | .map _ | .knot .. => false
  | .tuple items => areHashable items
  | _ => true

/-- Each of the values can be a key. -/
def areHashable : List Value → Bool
  | [] => true
  | v :: r => isHashable v && areHashable r

end

/-- The integer that a truth value or an integer counts as. -/
def asInt? : Value → Option Int
  | .bool b => some (if b then 1 else 0)
  | .int n => some n
  | _ => none

/-- The instant of a moment with a known offset, in minutes and then seconds and millionths. -/
def instant (m : Calendar.Moment) (offset : Int) : Int × Nat × Nat :=
  let y := m.date.year - 1
  let days := y * 365 + y / 4 - y / 100 + y / 400 +
    ((List.range (m.date.month - 1)).map fun k =>
      Calendar.daysIn m.date.year (k + 1)).foldl (· + ·) 0 +
    m.date.day
  (((days * 24 + m.hour) * 60 + m.minute : Nat) - offset, m.second, m.micro)

/-- Moments are the same if both offsets are known and the instants are equal, or neither is known
and all numbers are equal. -/
def sameMoment (a b : Calendar.Moment) : Bool :=
  match a.offset, b.offset with
  | some x, some y => instant a x == instant b y
  | none, none => a == b
  | _, _ => false

/-- Keys are the same: numbers and truth values by what they count as, others by kind and value. -/
def sameKey (a b : Value) : Bool :=
  match a, b with
  | .null, .null => true
  | .text s, .text t => s == t
  | .bytes s, .bytes t => s == t
  | .date s, .date t => s == t
  | .moment s, .moment t => sameMoment s t
  | .real x, .real y => x.same y
  | .real x, b => (b.asInt?.map x.isInt).getD false
  | a, .real y => (a.asInt?.map y.isInt).getD false
  | a, b => match a.asInt?, b.asInt? with
    | some m, some n => m == n
    | _, _ => false

/-- The entries with a key set to a value. A new key comes last; a key that is there keeps its place
and its spelling. -/
def put (entries : List (Value × Value)) (key value : Value) : List (Value × Value) :=
  if entries.any (·.1.sameKey key) then
    entries.map fun e => if e.1.sameKey key then (e.1, value) else e
  else entries ++ [(key, value)]

end Value

end SurfaceAudit
