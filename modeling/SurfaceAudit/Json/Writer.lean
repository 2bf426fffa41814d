import SurfaceAudit.Value.Written

/-!
# Writing JSON

A value is written on lines, two blanks further in for each level, with ASCII characters only. The
written form comes in pieces, the last of which is a fault if the value has no JSON form.
-/

namespace SurfaceAudit.Json

/-- The escape of a number below `0x10000`. -/
def escapeUnit (n : Nat) : Text := ("\\u" : Text) ++ Text.hex 4 n

/-- A code point inside a string. -/
def escaped (p : Point) : Text :=
  match p with
  | .scalar '"' => "\\\""
  | .scalar '\\' => "\\\\"
  | .scalar '\n' => "\\n"
  | .scalar '\r' => "\\r"
  | .scalar '\t' => "\\t"
  | .scalar '\x0c' => "\\f"
  | .scalar '\x08' => "\\b"
  | p =>
    let n := p.val
    if 0x20 ≤ n && n < 0x7F then [p]
    else if n < 0x10000 then escapeUnit n
    else escapeUnit (0xD800 + (n - 0x10000) / 0x400) ++
      escapeUnit (0xDC00 + (n - 0x10000) % 0x400)

/-- A text as a JSON string. -/
def quoted (t : Text) : Text := .scalar '"' :: (t.flatMap escaped ++ [.scalar '"'])

/-- A number as JSON, with names for the infinities and for what is not a number. -/
def real (x : Binary64) : Text :=
  match x with
  | .nan => "NaN"
  | .infinity s => if s then "-Infinity" else "Infinity"
  | x => x.text

/-- A value as the key of an object. -/
def key : Value → Attempt Text
  | .text t => .ok (quoted t)
  | .null => .ok (quoted "null")
  | .bool b => .ok (quoted (if b then "true" else "false"))
  | .int n => (Number.writeInt n).map quoted
  | .real x => .ok (quoted (real x))
  | v => .error (.kind (.notJson v.kindName))

/-- The start of a line at a level. -/
def newLine (level : Nat) : Text := .scalar '\n' :: List.replicate (2 * level) (.scalar ' ')

/-- A piece of a written form, or the fault in its place. -/
abbrev Piece := Attempt Text

mutual

/-- The pieces of a value at a level. -/
def pieces (level : Nat) : Value → List Piece
  | .null => [.ok "null"]
  | .bool b => [.ok (if b then "true" else "false")]
  | .int n => [Number.writeInt n]
  | .real x => [.ok (real x)]
  | .text t => [.ok (quoted t)]
  | .list items => listPieces level items
  | .tuple items => listPieces level items
  | .map entries =>
    match entries with
    | [] => [.ok "\x7b\x7d"]
    | entries =>
      .ok "\x7b" :: (entryPieces (level + 1) true entries ++ [.ok (newLine level), .ok "\x7d"])
  | .again _ => [.error .circular]
  | .link _ => [.error .circular]
  | .knot drawing _ _ => pieces level drawing
  | v => [.error (.kind (.notJson v.kindName))]

/-- The pieces of a list at a level. -/
def listPieces (level : Nat) : List Value → List Piece
  | [] => [.ok "[]"]
  | v :: r =>
    .ok "[" :: .ok (newLine (level + 1)) ::
      (pieces (level + 1) v ++ morePieces (level + 1) r ++ [.ok (newLine level), .ok "]"])

/-- The pieces of further elements at a level. -/
def morePieces (level : Nat) : List Value → List Piece
  | [] => []
  | v :: r => .ok "," :: .ok (newLine level) :: (pieces level v ++ morePieces level r)

/-- The pieces of entries at a level; the first has no comma before it. -/
def entryPieces (level : Nat) (first : Bool) : List (Value × Value) → List Piece
  | [] => []
  | (k, v) :: r =>
    (if first then [] else [.ok ","]) ++ .ok (newLine level) :: key k :: .ok ": " ::
      (pieces level v ++ entryPieces level false r)

end

/-- What is written before the first fault, and the fault. -/
def draft (v : Value) : Text × Option Fault :=
  let ps := pieces 0 v
  let good := ps.takeWhile (·.isOk)
  ((good.filterMap (·.toOption)).flatten,
    (ps.drop good.length).head?.bind fun
      | .ok _ => none
      | .error f => some f)

/-- The JSON text of a value. -/
def write (v : Value) : Attempt Text :=
  match draft v with
  | (t, none) => .ok t
  | (_, some f) => .error f

end SurfaceAudit.Json
