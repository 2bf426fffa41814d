/-!
# Code points and texts

A text is a list of Unicode code points. Data formats with escapes can spell a surrogate that is
not half of a pair, so a code point is a scalar value or a lone surrogate. Texts are ordered by
code point.
-/

namespace SurfaceAudit

/-- A Unicode code point: a scalar value, or a surrogate that stands alone. -/
inductive Point where
  /-- A scalar value. -/
  | scalar (c : Char)
  /-- The surrogate `0xD800 + n`. -/
  | surrogate (n : Fin 0x800)
  deriving DecidableEq, Inhabited

/-- A text is a list of code points. -/
abbrev Text := List Point

namespace Point

/-- The number of the code point. -/
def val : Point → Nat
  | .scalar c => c.toNat
  | .surrogate n => 0xD800 + n

/-- The code point with a given number, if there is one. -/
def ofNat? (n : Nat) : Option Point :=
  if h : n.isValidChar then some (.scalar (Char.ofNatAux n h))
  else if h : 0xD800 ≤ n ∧ n - 0xD800 < 0x800 then some (.surrogate ⟨n - 0xD800, h.2⟩)
  else none

/-- The code point is one of the ASCII characters. -/
def isAscii (p : Point) : Bool := p.val < 0x80

/-- The code point is a scalar value between two others. -/
def between (p : Point) (lo hi : Char) : Bool := lo.toNat ≤ p.val && p.val ≤ hi.toNat

/-- The code point is an ASCII digit. -/
def isAsciiDigit (p : Point) : Bool := p.between '0' '9'

/-- The code point is an ASCII letter. -/
def isAsciiLetter (p : Point) : Bool := p.between 'a' 'z' || p.between 'A' 'Z'

/-- The value of a hexadecimal digit. -/
def hexDigit? (p : Point) : Option Nat :=
  if p.between '0' '9' then some (p.val - 48)
  else if p.between 'a' 'f' then some (p.val - 87)
  else if p.between 'A' 'F' then some (p.val - 55)
  else none

instance : Coe Char Point := ⟨.scalar⟩

end Point

namespace Text

/-- The text of a string of scalar values. -/
def ofString (s : String) : Text := s.toList.map .scalar

instance : Coe String Text := ⟨ofString⟩

/-- The string of a text; a lone surrogate has no place in a string and is replaced. -/
def toString (t : Text) : String :=
  String.ofList (t.map fun
    | .scalar c => c
    | .surrogate _ => '\uFFFD')

/-- The order of texts: by the first code point that differs, a shorter text before a longer. -/
def le : Text → Text → Bool
  | [], _ => true
  | _ :: _, [] => false
  | a :: s, b :: t => a.val < b.val || (a.val == b.val && le s t)

/-- A text put into its place among texts that are in order, before those equal to it. -/
def insert (t : Text) : List Text → List Text
  | [] => [t]
  | u :: r => if le t u then t :: u :: r else u :: insert t r

/-- The texts in order; equal texts stay. -/
def sort (ts : List Text) : List Text := ts.foldr insert []

/-- The text starts with another. -/
def startsWith (t s : Text) : Bool := s.isPrefixOf t

/-- The text holds another as a run of neighbours. -/
def holds (s : Text) : Text → Bool
  | [] => s.isEmpty
  | t@(_ :: r) => s.isPrefixOf t || holds s r

/-- The texts one after the other, with a separator between neighbours. -/
def join (sep : Text) (ts : List Text) : Text := sep.intercalate ts

/-- The decimal digits of a natural number. -/
def ofNat (n : Nat) : Text := (Nat.toDigits 10 n).map .scalar

/-- The decimal text of an integer. -/
def ofInt : Int → Text
  | .ofNat n => ofNat n
  | .negSucc n => '-' :: ofNat (n + 1)

/-- The text filled with blanks on the right up to a width. -/
def padRight (width : Nat) (t : Text) : Text := t ++ List.replicate (width - t.length) (.scalar ' ')

/-- The text filled with blanks on the left up to a width. -/
def padLeft (width : Nat) (t : Text) : Text := List.replicate (width - t.length) (.scalar ' ') ++ t

/-- A number of zeros. -/
def zeros (n : Nat) : Text := List.replicate n (.scalar '0')

/-- The text filled with zeros on the left up to a width. -/
def padZero (width : Nat) (t : Text) : Text := zeros (width - t.length) ++ t

/-- The hexadecimal digits of a number, in small letters, filled with zeros up to a width. -/
def hex (width n : Nat) : Text := padZero width ((Nat.toDigits 16 n).map .scalar)

/-- A text has as many code points as its string has characters. -/
@[simp] theorem length_ofString (s : String) : (ofString s).length = s.toList.length := by
  simp [ofString]

/-- A text is not after itself. -/
@[simp] theorem le_refl (t : Text) : le t t = true := by
  induction t with
  | nil => rfl
  | cons a s ih => simp [le, ih]

end Text

end SurfaceAudit
