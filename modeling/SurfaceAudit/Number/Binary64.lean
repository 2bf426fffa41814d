/-!
# Binary floating point numbers

The numbers of the 64-bit binary format as exact values: `mantissa * 2 ^ exponent` with a sign.
Every operation computes the exact result as a ratio and rounds it once, to the nearest number and
in a tie to the one with an even mantissa.
-/

namespace SurfaceAudit

/-- A number of the 64-bit binary format. -/
inductive Binary64 where
  /-- Not a number. -/
  | nan
  /-- An infinity. -/
  | infinity (negative : Bool)
  /-- A finite number with its sign; zero has one too. -/
  | finite (negative : Bool) (mantissa : Nat) (exponent : Int)
  deriving DecidableEq, Inhabited

namespace Binary64

/-- The least exponent, that of the subnormal numbers. -/
def minExponent : Int := -1074

/-- The greatest exponent of a finite number. -/
def maxExponent : Int := 971

/-- Zero with a sign. -/
def zero (negative : Bool) : Binary64 := .finite negative 0 minExponent

/-- The ratio divided by a power of two, as a ratio. -/
def scale (num den : Nat) (e : Int) : Nat × Nat :=
  if 0 ≤ e then (num, den * Nat.pow 2 e.toNat) else (num * Nat.pow 2 (-e).toNat, den)

/-- The quotient rounded to the nearest natural number, a half to the even neighbour. -/
def roundDiv (num den : Nat) : Nat :=
  let q := num / den
  let r := num % den
  if den < 2 * r || (2 * r == den && q % 2 == 1) then q + 1 else q

/-- The exponent with which a positive ratio has a mantissa of 53 binary digits, or the least. -/
def exponentFor (num den : Nat) : Int :=
  let e : Int := (num.log2 : Int) - den.log2 - 52
  let (n, d) := scale num den e
  max (if n / d < Nat.pow 2 52 then e - 1 else e) minExponent

/-- The number nearest to a ratio. -/
def ofRatio (negative : Bool) (num den : Nat) : Binary64 :=
  if num == 0 then zero negative
  else
    let e := exponentFor num den
    let (n, d) := scale num den e
    let m := roundDiv n d
    let (m, e) := if m == Nat.pow 2 53 then (Nat.pow 2 52, e + 1) else (m, e)
    if maxExponent < e then .infinity negative else .finite negative m e

/-- The number nearest to `coefficient * 10 ^ exponent`. Far outside the range of the format the
answer is known without the power. -/
def ofDecimal (negative : Bool) (coefficient : Nat) (exponent : Int) : Binary64 :=
  let digits : Int := (Nat.toDigits 10 coefficient).length
  if coefficient == 0 then zero negative
  else if 310 < digits + exponent then .infinity negative
  else if digits + exponent < -330 then zero negative
  else if 0 ≤ exponent then ofRatio negative (coefficient * Nat.pow 10 exponent.toNat) 1
  else ofRatio negative coefficient (Nat.pow 10 (-exponent).toNat)

/-- The number nearest to an integer, if it is in the range of the finite numbers. -/
def ofInt? (n : Int) : Option Binary64 :=
  match ofRatio (n < 0) n.natAbs 1 with
  | .infinity _ => none
  | x => some x

/-- The number with the sign turned. -/
def neg : Binary64 → Binary64
  | .nan => .nan
  | .infinity s => .infinity !s
  | .finite s m e => .finite (!s) m e

/-- The number nearest to an integer times a power of two; zero has the sign given. -/
def ofScaled (n : Int) (e : Int) (zeroSign : Bool) : Binary64 :=
  if n == 0 then zero zeroSign
  else if 0 ≤ e then ofRatio (n < 0) (n.natAbs * Nat.pow 2 e.toNat) 1
  else ofRatio (n < 0) n.natAbs (Nat.pow 2 (-e).toNat)

/-- The mantissa with its sign. -/
def signed (negative : Bool) (m : Nat) : Int := if negative then -(m : Int) else m

/-- The sum of two numbers. -/
def add : Binary64 → Binary64 → Binary64
  | .nan, _ => .nan
  | _, .nan => .nan
  | .infinity s, .infinity t => if s == t then .infinity s else .nan
  | .infinity s, _ => .infinity s
  | _, .infinity t => .infinity t
  | .finite s m e, .finite t n f =>
    let low := min e f
    ofScaled (signed s m * Nat.pow 2 (e - low).toNat + signed t n * Nat.pow 2 (f - low).toNat) low
      (s && t)

/-- The product of two numbers. -/
def mul : Binary64 → Binary64 → Binary64
  | .nan, _ => .nan
  | _, .nan => .nan
  | .infinity s, .infinity t => .infinity (s != t)
  | .infinity s, .finite t m _ => if m == 0 then .nan else .infinity (s != t)
  | .finite s m _, .infinity t => if m == 0 then .nan else .infinity (s != t)
  | .finite s m e, .finite t n f => ofScaled (signed (s != t) (m * n)) (e + f) (s != t)

/-- The number is zero, of either sign. -/
def isZero : Binary64 → Bool
  | .finite _ m _ => m == 0
  | _ => false

/-- The integer part of a finite number, towards zero. -/
def truncate? : Binary64 → Option Int
  | .finite s m e =>
    some (signed s (if 0 ≤ e then m * Nat.pow 2 e.toNat else m / Nat.pow 2 (-e).toNat))
  | _ => none

/-- The number is equal to an integer. -/
def isInt (x : Binary64) (n : Int) : Bool :=
  match x with
  | .finite s m e =>
    if 0 ≤ e then signed s (m * Nat.pow 2 e.toNat) == n
    else signed s m == n * Nat.pow 2 (-e).toNat
  | _ => false

/-- Equality of numbers: the zeros are equal, and what is not a number equals nothing. -/
def same (x y : Binary64) : Bool := (x.isZero && y.isZero) || (x != .nan && x == y)

end Binary64

end SurfaceAudit
