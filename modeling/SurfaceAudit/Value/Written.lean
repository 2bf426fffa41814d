import SurfaceAudit.Number.Reading
import SurfaceAudit.Number.Shortest
import SurfaceAudit.Value.Basic

/-!
# The written form of values

The text of a value by itself and its written form inside a container: texts in quotes, sequences
in brackets, mappings in braces. An integer with too many digits has no written form, and neither
has anything that contains one.
-/

namespace SurfaceAudit

/-- How a container is drawn that is being drawn already. -/
def Shape.cut : Shape → Text
  | .list => "[...]"
  | .tuple => "(...)"
  | .set => "set(...)"
  | .map => "\x7b...\x7d"

namespace Value

/-- Elements in brackets; a single element of fixed length has a comma after it. -/
def bracketed (opening closing : Text) (items : List Text) : Text :=
  opening ++ Text.join ", " items ++ closing

mutual

/-- The written form of a value inside a container. -/
def quoted : Value → Attempt Text
  | .null => .ok "None"
  | .bool b => .ok (if b then "True" else "False")
  | .int n => Number.writeInt n
  | .real x => .ok x.text
  | .text t => .ok t.quoted
  | .bytes b => .ok (Text.quotedBytes b)
  | .date d => .ok d.quoted
  | .moment m => .ok m.quoted
  | .list items => (quotedAll items).map (bracketed "[" "]")
  | .tuple items =>
    (quotedAll items).map fun ts => bracketed "(" (if ts.length == 1 then ",)" else ")") ts
  | .set items =>
    (quotedAll items).map fun ts => if ts.isEmpty then "set()" else bracketed "\x7b" "\x7d" ts
  | .map entries => (quotedEntries entries).map (bracketed "\x7b" "\x7d")
  | .again shape => .ok shape.cut
  | .link _ => .ok "..."
  | .knot drawing _ _ => quoted drawing

/-- The written forms of values, in order. -/
def quotedAll : List Value → Attempt (List Text)
  | [] => .ok []
  | v :: r => do
    let t ← quoted v
    let ts ← quotedAll r
    return t :: ts

/-- The written forms of entries, in order. -/
def quotedEntries : List (Value × Value) → Attempt (List Text)
  | [] => .ok []
  | (k, v) :: r => do
    let s ← quoted k
    let t ← quoted v
    let ts ← quotedEntries r
    return (s ++ ": " ++ t) :: ts

end

/-- The text of a value by itself. -/
def shown : Value → Attempt Text
  | .text t => .ok t
  | .date d => .ok d.text
  | .moment m => .ok m.text
  | v => v.quoted

/-- The integer that a value stands for: a truth value as 0 or 1, a number without its fraction, a
text or bytes by what they spell. -/
def toInt : Value → Attempt Int
  | .bool b => .ok (if b then 1 else 0)
  | .int n => .ok n
  | .real x =>
    match x.truncate? with
    | some n => .ok n
    | none => .error (if x = .nan then .nanToInteger else .infinityToInteger)
  | .text t => Number.readInt 10 t
  | .bytes b =>
    Number.readIntShown 10 (Text.quotedBytes b)
      (b.map fun u => if u < 0x80 then .scalar (Char.ofUInt8 u) else .surrogate 0)
  | v => .error (.kind (.notNumeric v.kindName))

/-- A text is shown as it is. -/
@[simp] theorem shown_text (t : Text) : shown (.text t) = .ok t := rfl

end Value

end SurfaceAudit
