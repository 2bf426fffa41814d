import SurfaceAudit.Fault
import SurfaceAudit.Number.Binary64
import SurfaceAudit.Text.Class

/-!
# Reading and writing numbers

Integers are read in a base, with digits of any script, single underscores between digits, a sign
and blanks around. Real numbers are read from decimal notation. Integers of more than 4300 decimal
digits are neither read from decimal text nor written as such.
-/

namespace SurfaceAudit.Number

/-- The greatest number of decimal digits of an integer that is read or written. -/
def digitLimit : Nat := 4300

/-- A code point of a number: ASCII stays, and digits and blanks of other scripts become ASCII. -/
def plain? (p : Point) : Option Point :=
  if p.isAscii then some p
  else if p.isBlank then some (.scalar ' ')
  else p.digit?.map fun d => .scalar (Char.ofNat (48 + d))

/-- The ASCII blanks that may stand around a number. -/
def isSpace (p : Point) : Bool := p == ' ' || p.between '\t' '\r'

/-- The text of a number in ASCII without blanks at the edges. -/
def plain (t : Text) : Option Text :=
  (t.mapM plain?).map fun s => ((s.dropWhile isSpace).reverse.dropWhile isSpace).reverse

/-- The sign of a number and the rest. -/
def sign : Text → Bool × Text
  | .scalar '-' :: r => (true, r)
  | .scalar '+' :: r => (false, r)
  | t => (false, t)

/-- The value of a digit in a base. -/
def digitIn? (base : Nat) (p : Point) : Option Nat := p.hexDigit?.filter (· < base)

/-- The digits at the start of a text, with single underscores between them, and the rest. The flag
says that the last code point was an underscore. -/
def digits (base : Nat) : Text → Bool → List Nat → List Nat × Bool × Text
  | [], under, done => (done.reverse, under, [])
  | p :: r, under, done =>
    match digitIn? base p with
    | some d => digits base r false (d :: done)
    | none =>
      if p == '_' && !under && !done.isEmpty then digits base r true done
      else (done.reverse, under, p :: r)

/-- The text without the mark of a base and an underscore after it. -/
def dropMark (base : Nat) (t : Text) : Text :=
  match t with
  | .scalar '0' :: .scalar m :: r =>
    if (base == 16 && (m == 'x' || m == 'X')) || (base == 8 && (m == 'o' || m == 'O')) ||
        (base == 2 && (m == 'b' || m == 'B')) then
      match r with
      | .scalar '_' :: r => r
      | r => r
    else t
  | t => t

/-- The value of digits in a base. -/
def valueOf (base : Nat) (ds : List Nat) : Nat := ds.foldl (fun n d => n * base + d) 0

/-- The integer that a text spells in a base; `shown` is how the text is quoted if it does not. -/
def readIntShown (base : Nat) (shown : Text) (t : Text) : Attempt Int :=
  let bad : Attempt Int := .error (.notInteger base shown)
  match plain t with
  | none => bad
  | some s =>
    let (negative, s) := sign s
    let (ds, under, rest) := digits base (dropMark base s) false []
    -- Too many digits are refused before anything that is wrong after them.
    if base == 10 && digitLimit < ds.length then .error (.tooManyDigits (some ds.length))
    else if ds.isEmpty || under || !rest.isEmpty then bad
    else .ok (if negative then -(valueOf base ds : Int) else valueOf base ds)

/-- The integer that a text spells in a base. -/
def readInt (base : Nat) (t : Text) : Attempt Int := readIntShown base t.quoted t

/-- The decimal text of an integer. -/
def writeInt (n : Int) : Attempt Text :=
  if n.natAbs.log2 < 14000 || n.natAbs < Nat.pow 10 digitLimit then .ok (Text.ofInt n)
  else .error (.tooManyDigits none)

/-- The decimal digits at the start of a text, and the rest. -/
def decimals (t : Text) : List Nat × Text :=
  ((t.takeWhile Point.isAsciiDigit).map (·.val - 48), t.dropWhile Point.isAsciiDigit)

/-- The exponent at the start of a text: nothing, or the letter, a sign and digits; then the end. -/
def exponent? : Text → Option Int
  | [] => some 0
  | e :: r =>
    if e == 'e' || e == 'E' then
      let (negative, r) := sign r
      let (ds, rest) := decimals r
      if ds.isEmpty || !rest.isEmpty then none
      else
        let n := valueOf 10 ds
        some (if negative then -(n : Int) else n)
    else none

/-- The number in decimal notation without a sign. -/
def unsigned? (negative : Bool) (t : Text) : Option Binary64 :=
  let (whole, r) := decimals t
  let (fraction, r) := match r with
    | .scalar '.' :: r => decimals r
    | r => ([], r)
  if whole.isEmpty && fraction.isEmpty then none
  else (exponent? r).map fun e =>
    Binary64.ofDecimal negative (valueOf 10 (whole ++ fraction)) (e - fraction.length)

/-- The number that a text spells, infinities and what is not a number included. -/
def readReal (t : Text) : Attempt Binary64 :=
  let bad : Attempt Binary64 := .error (.notReal t.quoted)
  match plain t with
  | none => bad
  | some s =>
    let (negative, s) := sign s
    let name := s.map fun p => if p.between 'A' 'Z' then (Point.ofNat? (p.val + 32)).getD p else p
    if name == ("inf" : Text) || name == ("infinity" : Text) then .ok (.infinity negative)
    else if name == ("nan" : Text) then .ok .nan
    else match unsigned? negative s with
      | some x => .ok x
      | none => bad

end SurfaceAudit.Number
