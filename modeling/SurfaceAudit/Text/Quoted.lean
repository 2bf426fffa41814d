import SurfaceAudit.Text.Class

/-!
# Quoted texts

A quoted text stands in single quotes, or in double quotes if it holds a single quote and no double
one. The quote and the backslash are written after a backslash, and what is not printable by its
number.
-/

namespace SurfaceAudit.Text

/-- The quote around a text: double where that alone avoids an escape. -/
def quoteFor (t : Text) : Point :=
  if t.contains (.scalar '\'') && !t.contains (.scalar '"') then '"' else '\''

/-- A code point by its number, with the fewest of two, four or eight hexadecimal digits. -/
def numbered (n : Nat) : Text :=
  if n ≤ 0xFF then "\\x" ++ hex 2 n else if n ≤ 0xFFFF then "\\u" ++ hex 4 n else "\\U" ++ hex 8 n

/-- A code point inside a given quote. -/
def escaped (quote : Point) (c : Point) : Text :=
  if c == quote || c == '\\' then ['\\', c]
  else if c == '\n' then "\\n"
  else if c == '\r' then "\\r"
  else if c == '\t' then "\\t"
  else if c.isPrintable then [c]
  else numbered c.val

/-- The text in quotes. -/
def quoted (t : Text) : Text :=
  let q := quoteFor t
  q :: (t.flatMap (escaped q) ++ [q])

/-- A sequence of bytes in quotes, after the letter `b`. -/
def quotedBytes (bytes : List UInt8) : Text :=
  let t : Text := bytes.map fun b => .scalar (Char.ofUInt8 b)
  let q := quoteFor t
  'b' :: q :: (t.flatMap (fun c => if c.isAscii then escaped q c else numbered c.val) ++ [q])

end SurfaceAudit.Text
