import SurfaceAudit.Number.Reading
import SurfaceAudit.Text.Base64
import SurfaceAudit.Text.Case
import SurfaceAudit.Value.Basic
import SurfaceAudit.Yaml.Node
import SurfaceAudit.Yaml.Timestamp

/-!
# Scalars of YAML

The tag that an untagged plain scalar suggests, and the value of a scalar under a tag. A tag that is
written may not fit the text; what then goes wrong depends on the tag.
-/

namespace SurfaceAudit.Yaml

namespace Tag

/-- A decimal digit or an underscore. -/
def isFiller (p : Point) : Bool := p.isAsciiDigit || p == '_'

/-- The text without a sign before it. -/
def unsign : Text → Text
  | .scalar '+' :: r => r
  | .scalar '-' :: r => r
  | t => t

/-- The exponent of a float at the end of a text: a letter, a sign and digits, or nothing. -/
def endsWithExponent (t : Text) : Bool :=
  Stamp.atEnd t ||
    match t with
    | .scalar e :: .scalar s :: d :: r =>
      (e == 'e' || e == 'E') && (s == '+' || s == '-') && d.isAsciiDigit &&
        Stamp.atEnd (r.dropWhile Point.isAsciiDigit)
    | _ => false

/-- The text after groups of a colon and a number below 60, given whether there was one. -/
def afterSixties : Nat → Bool → Text → Option Text
  | 0, _, _ => none
  | bound + 1, some?, t =>
    match t with
    | .scalar ':' :: r =>
      match r.takeWhile Point.isAsciiDigit with
      | [_] => afterSixties bound true (r.drop 1)
      | [d, _] => if d.between '0' '5' then afterSixties bound true (r.drop 2) else none
      | _ => none
    | t => if some? then some t else none

/-- The text has the form of a float: digits with a point, sixties with a point, an infinity, or the
name for what is no number. -/
def isFloat (t : Text) : Bool :=
  match unsign t with
  | .scalar '.' :: r =>
    let name (names : List Text) : Bool := names.any fun n => Text.startsWith r n &&
      Stamp.atEnd (r.drop 3)
    name ["inf", "Inf", "INF"] ||
      (t.head? == some (.scalar '.') &&
        (name ["nan", "NaN", "NAN"] ||
          ((r.head?.map Point.isAsciiDigit).getD false &&
            endsWithExponent (r.dropWhile isFiller))))
  | d :: r =>
    d.isAsciiDigit &&
      match r.dropWhile isFiller with
      | .scalar '.' :: r => endsWithExponent (r.dropWhile isFiller)
      | r =>
        match afterSixties (r.length + 1) false r with
        | some (.scalar '.' :: r) => Stamp.atEnd (r.dropWhile isFiller)
        | _ => false
  | [] => false

/-- One or more code points of a class, up to the end. -/
def isRun (f : Point → Bool) (t : Text) : Bool :=
  (t.head?.map f).getD false && Stamp.atEnd (t.dropWhile f)

/-- The text has the form of an integer: binary, octal, decimal, hexadecimal or in sixties. -/
def isInt (t : Text) : Bool :=
  match unsign t with
  | .scalar '0' :: r =>
    Stamp.atEnd r || isRun (fun p => p.between '0' '7' || p == '_') r ||
      match r with
      | .scalar 'b' :: r => isRun (fun p => p == '0' || p == '1' || p == '_') r
      | .scalar 'x' :: r => isRun (fun p => p.hexDigit?.isSome || p == '_') r
      | _ => false
  | d :: r =>
    d.isAsciiDigit &&
      let r := r.dropWhile isFiller
      Stamp.atEnd r || ((afterSixties (r.length + 1) false r).map Stamp.atEnd).getD false
  | [] => false

/-- The text is one of some words, up to a line feed at its end. -/
def isWord (words : List Text) (t : Text) : Bool :=
  words.contains t || words.any fun w => t == w ++ [.scalar '\n']

/-- The words for truth values, in the three spellings that are known. -/
def truthWords : List Text :=
  ["yes", "Yes", "YES", "no", "No", "NO", "true", "True", "TRUE", "false", "False", "FALSE",
    "on", "On", "ON", "off", "Off", "OFF"]

/-- The words for nothing. -/
def nullWords : List Text := ["~", "null", "Null", "NULL"]

/-- The tag that a text suggests. Only its first code point decides which forms are tried. -/
def suggested (t : Text) : Tag :=
  match t with
  | [] => .null
  | p :: _ =>
    if p.isAsciiDigit then
      if isFloat t then .float
      else if isInt t then .int
      else if Stamp.isSuggested t then .timestamp
      else .str
    else if p == '+' || p == '-' then
      if isFloat t then .float else if isInt t then .int else .str
    else if p == '.' then if isFloat t then .float else .str
    else if isWord truthWords t then .bool
    else if isWord nullWords t then .null
    else if isWord ["<<"] t then .merge
    else if isWord ["="] t then .value
    else if isWord ["!", "&", "*"] t then .unknown
    else .str

end Tag

namespace Scalar

/-- The words for truth values and what they mean. -/
def truths : List (Text × Bool) :=
  [("yes", true), ("no", false), ("true", true), ("false", false), ("on", true), ("off", false)]

/-- The text without underscores, and without the sign, of which it is told whether it is minus. -/
def signed (t : Text) : Attempt (Bool × Text) :=
  match t.filter (· != Point.scalar '_') with
  | [] => .error .emptyText
  | .scalar '-' :: r => .ok (true, r)
  | .scalar '+' :: r => .ok (false, r)
  | t => .ok (false, t)

/-- The parts of a text between colons. -/
def sixties (t : Text) : List Text := t.fields (· == Point.scalar ':')

/-- The integer of a text without sign. -/
def magnitude (t : Text) : Attempt Int :=
  if t == ("0" : Text) then .ok 0
  else if t.startsWith "0b" then Number.readInt 2 (t.drop 2)
  else if t.startsWith "0x" then Number.readInt 16 (t.drop 2)
  else match t with
    | [] => .error .emptyText
    | .scalar '0' :: _ => Number.readInt 8 t
    | _ => do
      if t.contains (.scalar ':') then
        let parts ← (sixties t).mapM (Number.readInt 10)
        return parts.foldl (fun n d => n * 60 + d) 0
      else Number.readInt 10 t

/-- The integer of a text. -/
def int (t : Text) : Attempt Int := do
  let (negative, t) ← signed t
  let n ← magnitude t
  return if negative then -n else n

/-- The sum of numbers times growing powers of sixty, from the last number on. -/
def sixtiesSum : List Binary64 → Int → Binary64 → Attempt Binary64
  | [], _, sum => .ok sum
  | x :: r, base, sum =>
    match Binary64.ofInt? base with
    | none => .error .integerToReal
    | some b => sixtiesSum r (base * 60) (sum.add (x.mul b))

/-- The floating point number of a text. -/
def float (t : Text) : Attempt Binary64 := do
  let (negative, t) ← signed t.lower
  let x ← if t == (".inf" : Text) then pure (.infinity false)
    else if t == (".nan" : Text) then pure .nan
    else if t.contains (.scalar ':') then do
      let parts ← (sixties t).mapM Number.readReal
      sixtiesSum parts.reverse 1 (.zero false)
    else Number.readReal t
  return if negative then x.neg else x

/-- The value of a text under a tag for scalars. Tags of collections fit no scalar. -/
def value (tag : Tag) (t : Text) : Except Failure Value :=
  let attempt {α : Type} (x : Attempt α) (f : α → Value) : Except Failure Value :=
    match x with
    | .ok a => .ok (f a)
    | .error e => .error (.fault e)
  match tag with
  | .null => .ok .null
  | .str => .ok (.text t)
  | .bool =>
    match truths.find? (·.1 == t.lower) with
    | some (_, b) => .ok (.bool b)
    | none => .error (.fault (.keyMissing t.lower.quoted))
  | .int => attempt (int t) .int
  | .float => attempt (float t) .real
  | .binary =>
    if t.all Point.isAscii then
      match Base64.decode? t with
      | some b => .ok (.bytes b)
      | none => .error .malformed
    else .error .malformed
  | .timestamp =>
    match Stamp.read? t with
    | none => .error (.fault (.partMissing "NoneType" "groupdict"))
    | some s =>
      match s.value with
      | .ok (.inl d) => .ok (.date d)
      | .ok (.inr m) => .ok (.moment m)
      | .error d => .error (.fault (.calendar d))
  | _ => .error .malformed

end Scalar

end SurfaceAudit.Yaml
