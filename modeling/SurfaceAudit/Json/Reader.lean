import SurfaceAudit.Json.Defect
import SurfaceAudit.Number.Reading
import SurfaceAudit.Value.Basic

/-!
# Reading JSON

A text is read into a value. Numbers with a fraction or an exponent are floating point numbers, and
the names of the infinities and of what is not a number are numbers too. Of entries with the same
key the last value counts and the first place. Places are counted in code points.
-/

namespace SurfaceAudit.Json

/-- Why a text cannot be read. -/
inductive Refusal where
  /-- The text is not JSON. -/
  | defect (reason : Reason) (position : Nat)
  /-- An integer has too many digits. -/
  | digits (count : Nat)

/-- What is left of a text, and the number of code points before it. -/
structure Rest where
  /-- The text that is left. -/
  text : Text
  /-- The number of code points before it. -/
  position : Nat

namespace Rest

/-- The rest after some code points. -/
def drop (n : Nat) (r : Rest) : Rest := ⟨r.text.drop n, r.position + n⟩

/-- The rest after the blanks of JSON. -/
def skip (r : Rest) : Rest :=
  let blank (p : Point) : Bool := p == ' ' || p == '\t' || p == '\n' || p == '\r'
  r.drop (r.text.takeWhile blank).length

/-- The rest begins with a code point. -/
def isAt (r : Rest) (c : Char) : Bool := r.text.head? == some (.scalar c)

end Rest

/-- The value of the four hexadecimal digits at the start of a text. -/
def fourDigits? (t : Text) : Option Nat :=
  if (t.take 4).length < 4 then none
  else (t.take 4).foldlM (fun n p => p.hexDigit?.map (n * 16 + ·)) 0

/-- The code point for a letter after a backslash. -/
def escape? (p : Point) : Option Point :=
  match p with
  | .scalar '"' => some (.scalar '"')
  | .scalar '\\' => some (.scalar '\\')
  | .scalar '/' => some (.scalar '/')
  | .scalar 'b' => some (.scalar '\x08')
  | .scalar 'f' => some (.scalar '\x0c')
  | .scalar 'n' => some (.scalar '\n')
  | .scalar 'r' => some (.scalar '\r')
  | .scalar 't' => some (.scalar '\t')
  | _ => none

/-- The code point with a number below `0x10000`. -/
def unit (n : Nat) : Point := (Point.ofNat? n).getD default

/-- The number is the first half of a pair of surrogates. -/
def isHigh (n : Nat) : Bool := 0xD800 ≤ n && n < 0xDC00

/-- The number is the second half of a pair of surrogates. -/
def isLow (n : Nat) : Bool := 0xDC00 ≤ n && n < 0xE000

/-- An escape by number: the code point, and how much of the text after the `u` it takes. The text
goes on after the escape, if only with the quote. Two halves of a pair make one code point. -/
def numberEscape (t : Text) (position : Nat) : Except Refusal (Point × Nat) :=
  if (t.drop 4).isEmpty then .error (.defect .number position)
  else match fourDigits? t with
    | none => .error (.defect .number position)
    | some high =>
      match t.drop 4 with
      | .scalar '\\' :: .scalar 'u' :: r =>
        -- A second escape is looked at only if the text goes on after it, too.
        if isHigh high && !(r.drop 4).isEmpty then
          match fourDigits? r with
          | none => .error (.defect .number (position + 6))
          | some low =>
            if isLow low then
              .ok (unit (0x10000 + (high - 0xD800) * 0x400 + (low - 0xDC00)), 10)
            else .ok (unit high, 4)
        else .ok (unit high, 4)
      | _ => .ok (unit high, 4)

/-- Reads a string after its opening quote, which stands at `start`. The bound is at least the
length of the text; what is done stands in reverse. -/
def readString (start : Nat) : Nat → Text → Nat → Text → Except Refusal (Text × Rest)
  | 0, _, _, _ => .error (.defect .unterminated start)
  | _ + 1, [], _, _ => .error (.defect .unterminated start)
  | bound + 1, c :: r, position, done =>
    if c == '"' then .ok (done.reverse, ⟨r, position + 1⟩)
    else if c == '\\' then
      match r with
      | [] => .error (.defect .unterminated start)
      | e :: r =>
        if e == 'u' then
          match numberEscape r (position + 1) with
          | .error f => .error f
          | .ok (p, n) => readString start bound (r.drop n) (position + 2 + n) (p :: done)
        else match escape? e with
          | some p => readString start bound r (position + 2) (p :: done)
          | none => .error (.defect .escape position)
    else if c.val < 0x20 then .error (.defect .control position)
    else readString start bound r (position + 1) (c :: done)

/-- Reads a string after its opening quote. -/
def string (r : Rest) : Except Refusal (Text × Rest) :=
  readString (r.position - 1) (r.text.length + 1) r.text r.position []

/-- The digits of a fraction with its point, if both are there. -/
def fraction (t : Text) : Text :=
  match t with
  | .scalar '.' :: d :: r =>
    if d.isAsciiDigit then .scalar '.' :: d :: r.takeWhile Point.isAsciiDigit else []
  | _ => []

/-- An exponent with its letter and sign, if it has digits. -/
def exponent (t : Text) : Text :=
  match t with
  | e :: r =>
    if e == 'e' || e == 'E' then
      let sign := match r with
        | s :: _ => if s == '+' || s == '-' then [s] else []
        | [] => []
      let digits := (r.drop sign.length).takeWhile Point.isAsciiDigit
      if digits.isEmpty then [] else e :: (sign ++ digits)
    else []
  | [] => []

/-- The digits of the integer part of a number: a zero, or digits that do not begin with one. -/
def whole (t : Text) : Text :=
  match t with
  | d :: _ =>
    if d == '0' then [d]
    else if d.isAsciiDigit then t.takeWhile Point.isAsciiDigit
    else []
  | [] => []

/-- Reads a number. -/
def number (r : Rest) : Except Refusal (Value × Rest) :=
  let minus := if r.isAt '-' then [Point.scalar '-'] else []
  let t := r.text.drop minus.length
  let digits := whole t
  if digits.isEmpty then .error (.defect .value r.position)
  else
    let t := t.drop digits.length
    let part := fraction t
    let power := exponent (t.drop part.length)
    let all := minus ++ digits ++ part ++ power
    let rest := r.drop all.length
    if part.isEmpty && power.isEmpty then
      -- Only integers have a limit; the digits of other numbers are rounded.
      if Number.digitLimit < digits.length then .error (.digits digits.length)
      else
        let n := Number.valueOf 10 (digits.map (·.val - 48))
        .ok (.int (if minus.isEmpty then n else -(n : Int)), rest)
    else
      match Number.unsigned? (!minus.isEmpty) (digits ++ part ++ power) with
      | some x => .ok (.real x, rest)
      | none => .error (.defect .value r.position)

/-- The values that are written as names. -/
def names : List (Text × Value) :=
  [("null", .null), ("true", .bool true), ("false", .bool false), ("NaN", .real .nan),
    ("Infinity", .real (.infinity false)), ("-Infinity", .real (.infinity true))]

/-- Reads a name or a number. -/
def plain (r : Rest) : Except Refusal (Value × Rest) :=
  match names.find? fun n => r.text.startsWith n.1 with
  | some (name, v) => .ok (v, r.drop name.length)
  | none => number r

mutual

/-- Reads a value. The bound is at least the number of code points left. -/
def value : Nat → Rest → Except Refusal (Value × Rest)
  | 0, r => .error (.defect .value r.position)
  | bound + 1, r =>
    if r.isAt '"' then (string (r.drop 1)).map fun (t, r) => (.text t, r)
    else if r.isAt '{' then
      let r := (r.drop 1).skip
      if r.isAt '}' then .ok (.map [], r.drop 1) else entries bound r []
    else if r.isAt '[' then
      let r := (r.drop 1).skip
      if r.isAt ']' then .ok (.list [], r.drop 1) else elements bound r []
    else plain r

/-- Reads the elements of a list up to its end; what is done stands in reverse. -/
def elements : Nat → Rest → List Value → Except Refusal (Value × Rest)
  | 0, r, _ => .error (.defect .value r.position)
  | bound + 1, r, done =>
    match value bound r with
    | .error f => .error f
    | .ok (v, r) =>
      let r := r.skip
      if r.isAt ']' then .ok (.list (v :: done).reverse, r.drop 1)
      else if r.isAt ',' then elements bound (r.drop 1).skip (v :: done)
      else .error (.defect .comma r.position)

/-- Reads the entries of an object up to its end. -/
def entries : Nat → Rest → List (Value × Value) → Except Refusal (Value × Rest)
  | 0, r, _ => .error (.defect .value r.position)
  | bound + 1, r, done =>
    if !r.isAt '"' then .error (.defect .key r.position)
    else match string (r.drop 1) with
      | .error f => .error f
      | .ok (key, r) =>
        let r := r.skip
        if !r.isAt ':' then .error (.defect .colon r.position)
        else match value bound (r.drop 1).skip with
          | .error f => .error f
          | .ok (v, r) =>
            let r := r.skip
            let done := Value.put done (.text key) v
            if r.isAt '}' then .ok (.map done, r.drop 1)
            else if r.isAt ',' then entries bound (r.drop 1).skip done
            else .error (.defect .comma r.position)

end

/-- Why a JSON text cannot be read, with the place of a defect in lines and columns. -/
inductive Failure where
  /-- The text is not JSON. -/
  | defect (d : Defect)
  /-- An integer has too many digits. -/
  | digits (count : Nat)
  deriving DecidableEq

/-- Reads a whole text after its blanks. -/
def readRest (t : Text) : Except Refusal Value :=
  match t with
  | .scalar '\uFEFF' :: _ => .error (.defect .mark 0)
  | _ =>
    let r := Rest.skip ⟨t, 0⟩
    match value (2 * t.length + 2) r with
    | .error f => .error f
    | .ok (v, r) =>
      let r := r.skip
      if r.text.isEmpty then .ok v else .error (.defect .extra r.position)

/-- The value that a text writes. -/
def read (t : Text) : Except Failure Value :=
  match readRest t with
  | .ok v => .ok v
  | .error (.defect reason position) => .error (.defect (Defect.at t reason position))
  | .error (.digits n) => .error (.digits n)

end SurfaceAudit.Json
