import SurfaceAudit.Number.Binary64
import SurfaceAudit.Text.Point

/-!
# The shortest decimal text of a number

Of the decimals that round to a number, the one with the fewest digits is written; of two such, the
nearer one. The search goes through the decimal grids of one digit, two digits and so on, and looks
on each at the two neighbours of the number. The notation is positional for moderate exponents and
otherwise scientific.
-/

namespace SurfaceAudit.Binary64

/-- The greatest `x` with `10 ^ x * den ≤ num`, for a positive ratio. -/
def decimalExponent (num den : Nat) : Int :=
  let binary : Int := (num.log2 : Int) - den.log2
  -- `0.30103` is the decimal logarithm of 2; the guess is too small by three at most.
  let guess := Int.fdiv ((binary - 1) * 30103) 100000 - 1
  let reached (x : Int) : Bool :=
    if 0 ≤ x then Nat.pow 10 x.toNat * den ≤ num else den ≤ num * Nat.pow 10 (-x).toNat
  if reached (guess + 3) then guess + 3
  else if reached (guess + 2) then guess + 2
  else if reached (guess + 1) then guess + 1
  else guess

/-- A number as a ratio, with the ends of the interval of reals that round to it over the same
denominator, and whether the ends belong to it. -/
structure Interval where
  /-- The numerator of the number. -/
  value : Nat
  /-- The numerator of the lower end. -/
  lower : Nat
  /-- The numerator of the upper end. -/
  upper : Nat
  /-- The common denominator. -/
  den : Nat
  /-- The ends round to the number too. -/
  closed : Bool

/-- The interval of a positive number. Below a power of two the numbers lie closer together. -/
def interval (m : Nat) (e : Int) : Interval :=
  -- Everything is counted in quarters of the distance to the next number.
  let below := if m == Nat.pow 2 52 && e != minExponent then 1 else 2
  let times := if 0 ≤ e then Nat.pow 2 e.toNat else 1
  let den := if 0 ≤ e then 4 else 4 * Nat.pow 2 (-e).toNat
  ⟨4 * m * times, (4 * m - below) * times, (4 * m + 2) * times, den, m % 2 == 0⟩

/-- The point `n * 10 ^ p` lies in the interval. -/
def Interval.holds (i : Interval) (n : Nat) (p : Int) : Bool :=
  let (a, d) := if 0 ≤ p then (n * Nat.pow 10 p.toNat * i.den, 1)
    else (n * i.den, Nat.pow 10 (-p).toNat)
  if i.closed then i.lower * d ≤ a && a ≤ i.upper * d else i.lower * d < a && a < i.upper * d

/-- The neighbour of the number on the grid of step `10 ^ p` that lies in the interval, the nearer
one if both do, and in a tie the even one. -/
def Interval.onGrid? (i : Interval) (p : Int) : Option Nat :=
  let (a, d) := if 0 ≤ p then (i.value, i.den * Nat.pow 10 p.toNat)
    else (i.value * Nat.pow 10 (-p).toNat, i.den)
  -- The number lies between the grid points `n` and `n + 1`.
  let n := a / d
  let r := a % d
  match i.holds n p, i.holds (n + 1) p with
  | true, true => some (if 2 * r < d || (2 * r == d && n % 2 == 0) then n else n + 1)
  | true, false => some n
  | false, true => some (n + 1)
  | false, false => none

/-- The first hit on the grids of `digits` digits and more, down to a finest grid. -/
def Interval.search (i : Interval) (top : Int) : Nat → Nat → Nat × Int
  | 0, digits => ((i.onGrid? (top + 1 - digits)).getD 0, top + 1 - digits)
  | more + 1, digits =>
    match i.onGrid? (top + 1 - digits) with
    | some n => (n, top + 1 - digits)
    | none => i.search top more (digits + 1)

/-- The digits of the shortest decimal of a positive number, without zeros at the end, and the
number of places before the decimal point. -/
def shortest (m : Nat) (e : Int) : Text × Int :=
  let i := interval m e
  let (n, p) := i.search (decimalExponent i.value i.den) 16 1
  let digits := Text.ofNat n
  let bare := (digits.reverse.dropWhile (· == Point.scalar '0')).reverse
  (bare, digits.length + p)

/-- The notation of a decimal: positional from `0.0001` up to sixteen places before the point, and
otherwise one digit before the point and an exponent of at least two digits. -/
def layout (digits : Text) (places : Int) : Text :=
  if -4 < places && places ≤ 16 then
    if places ≤ 0 then ("0." : Text) ++ Text.zeros (-places).toNat ++ digits
    else
      let whole := digits.take places.toNat
      let fraction := digits.drop places.toNat
      whole ++ Text.zeros (places.toNat - whole.length) ++
        .scalar '.' :: (if fraction.isEmpty then Text.zeros 1 else fraction)
  else
    let exponent := places - 1
    digits.take 1 ++ (if digits.length ≤ 1 then [] else .scalar '.' :: digits.drop 1) ++
      (if exponent < 0 then ("e-" : Text) else "e+") ++ Text.padZero 2 (Text.ofNat exponent.natAbs)

/-- The shortest text that reads back as the number. -/
def text : Binary64 → Text
  | .nan => "nan"
  | .infinity s => if s then "-inf" else "inf"
  | .finite s m e =>
    (if s then ("-" : Text) else []) ++
      (if m == 0 then ("0.0" : Text) else
        let (digits, places) := shortest m e
        layout digits places)

end SurfaceAudit.Binary64
