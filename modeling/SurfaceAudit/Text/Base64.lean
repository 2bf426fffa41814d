import SurfaceAudit.Text.Point

/-!
# Base 64

Reading is lenient: what is no digit is passed over, and padding that completes a group of four ends
the data. Writing fills the last group with padding.
-/

namespace SurfaceAudit.Base64

/-- The value of a digit. -/
def digit? (p : Point) : Option Nat :=
  if p.between 'A' 'Z' then some (p.val - 65)
  else if p.between 'a' 'z' then some (p.val - 71)
  else if p.between '0' '9' then some (p.val + 4)
  else if p == '+' then some 62
  else if p == '/' then some 63
  else none

/-- The digit with a value. -/
def digit (n : Nat) : Point :=
  let c := if n < 26 then n + 65 else if n < 52 then n + 71 else if n < 62 then n - 4
    else if n == 62 then 43 else 47
  .scalar (Char.ofNat c)

/-- Reads on inside a group of four digits: `place` digits of it are read, `pads` paddings stand
after them, and `left` holds the bits not yet used. What is done stands in reverse. -/
def decodeFrom : Text → Nat → Nat → Nat → List UInt8 → Option (List UInt8)
  | [], place, _, _, done => if place == 0 then some done.reverse else none
  | c :: r, place, pads, left, done =>
    if c == '=' then
      if 2 ≤ place && 4 ≤ place + pads + 1 then some done.reverse
      else decodeFrom r place (if 2 ≤ place then pads + 1 else pads) left done
    else match digit? c with
      | none => decodeFrom r place pads left done
      | some d =>
        match place with
        | 0 => decodeFrom r 1 0 d done
        | 1 => decodeFrom r 2 0 (d % 16) (.ofNat (left * 4 + d / 16) :: done)
        | 2 => decodeFrom r 3 0 (d % 4) (.ofNat (left * 16 + d / 4) :: done)
        | _ => decodeFrom r 0 0 0 (.ofNat (left * 64 + d) :: done)

/-- The bytes that a text spells, unless its last group is cut off. -/
def decode? (t : Text) : Option (List UInt8) := decodeFrom t 0 0 0 []

/-- The text that spells the bytes. -/
def encode : List UInt8 → Text
  | [] => []
  | [a] => [digit (a.toNat / 4), digit (a.toNat % 4 * 16), '=', '=']
  | [a, b] =>
    [digit (a.toNat / 4), digit (a.toNat % 4 * 16 + b.toNat / 16), digit (b.toNat % 16 * 4), '=']
  | a :: b :: c :: r =>
    digit (a.toNat / 4) :: digit (a.toNat % 4 * 16 + b.toNat / 16) ::
      digit (b.toNat % 16 * 4 + c.toNat / 64) :: digit (c.toNat % 64) :: encode r

end SurfaceAudit.Base64
