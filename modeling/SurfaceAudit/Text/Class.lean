import SurfaceAudit.Text.Alphabet
import SurfaceAudit.Text.Point

/-!
# Classes of code points

White space, letters, digits and word characters in the sense of Unicode. ASCII is decided by
comparison and the rest by table.
-/

namespace SurfaceAudit.Point

/-- White space: the separators, and the controls that end lines, fields or records. -/
def isBlank (p : Point) : Bool :=
  let n := p.val
  (9 ≤ n && n ≤ 13) || (28 ≤ n && n ≤ 32) || n == 0x85 || n == 0xA0 || n == 0x1680 ||
    (0x2000 ≤ n && n ≤ 0x200A) || n == 0x2028 || n == 0x2029 || n == 0x202F || n == 0x205F ||
    n == 0x3000

/-- A letter. -/
def isLetter (p : Point) : Bool :=
  if p.isAscii then p.isAsciiLetter else Alphabet.letters.contains p.val

/-- A word character: a letter, a code point with a numeric value, or the underscore. -/
def isWord (p : Point) : Bool :=
  if p.isAscii then p.isAsciiLetter || p.isAsciiDigit || p == '_'
  else Alphabet.letters.contains p.val || Alphabet.numerals.contains p.val

/-- The value of a decimal digit of any script. -/
def digit? (p : Point) : Option Nat :=
  if p.isAscii then if p.isAsciiDigit then some (p.val - 48) else none
  else (Alphabet.zeros.find? fun z => z ≤ p.val && p.val ≤ z + 9).map (p.val - ·)

/-- A decimal digit of any script. -/
def isDigit (p : Point) : Bool := p.digit?.isSome

/-- A code point that is shown as it is. -/
def isPrintable (p : Point) : Bool :=
  if p.isAscii then 32 ≤ p.val && p.val < 127 else Alphabet.printable.contains p.val

/-- A code point that may begin an identifier. -/
def beginsIdentifier (p : Point) : Bool :=
  if p.isAscii then p.isAsciiLetter || p == '_' else Alphabet.identifierStart.contains p.val

/-- A code point that may follow in an identifier. -/
def continuesIdentifier (p : Point) : Bool :=
  if p.isAscii then p.isAsciiLetter || p.isAsciiDigit || p == '_'
  else Alphabet.identifierPart.contains p.val

end SurfaceAudit.Point

namespace SurfaceAudit.Text

/-- The text is an identifier: a start and any number of parts. -/
def isIdentifier : Text → Bool
  | [] => false
  | c :: r => c.beginsIdentifier && r.all Point.continuesIdentifier

end SurfaceAudit.Text
