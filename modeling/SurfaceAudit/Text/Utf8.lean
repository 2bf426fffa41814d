import SurfaceAudit.Text.Point

/-!
# UTF-8

Strict decoding of bytes, with the place and the reason of the first defect, and encoding, which a
lone surrogate defeats. A file read as text has every line end turned into a line feed.
-/

namespace SurfaceAudit.Utf8

/-- Why bytes are not UTF-8. -/
inductive Reason where
  /-- No sequence begins with this byte. -/
  | start
  /-- A byte does not go on with the sequence begun. -/
  | continuation
  /-- The bytes end inside a sequence. -/
  | ending
  deriving DecidableEq

/-- The first defect: the positions of the bytes at fault, the first of them, and the reason. -/
structure Defect where
  /-- The position of the first byte at fault. -/
  first : Nat
  /-- The number of bytes at fault. -/
  count : Nat
  /-- The first byte at fault. -/
  byte : UInt8
  /-- What is wrong. -/
  reason : Reason
  deriving DecidableEq

/-- The words for a reason. -/
def Reason.message : Reason → Text
  | .start => "invalid start byte"
  | .continuation => "invalid continuation byte"
  | .ending => "unexpected end of data"

/-- The words for a defect. -/
def Defect.message (d : Defect) : Text :=
  "'utf-8' codec can't decode " ++
    (if d.count == 1 then
      ("byte 0x" : Text) ++ Text.hex 2 d.byte.toNat ++ " in position " ++ Text.ofNat d.first
    else
      ("bytes in position " : Text) ++ Text.ofNat d.first ++ "-" ++
        Text.ofNat (d.first + d.count - 1)) ++
    ": " ++ d.reason.message

/-- A byte that goes on with a sequence. -/
def isTail (b : UInt8) : Bool := 0x80 ≤ b && b ≤ 0xBF

/-- A second byte that may follow a first one: the first of a long sequence narrows the range. -/
def follows (a b : UInt8) : Bool :=
  isTail b && !(a == 0xE0 && b < 0xA0) && !(a == 0xED && 0xA0 ≤ b) &&
    !(a == 0xF0 && b < 0x90) && !(a == 0xF4 && 0x90 ≤ b)

/-- The payload of a byte that goes on with a sequence. -/
def payload (b : UInt8) : Nat := b.toNat % 0x40

/-- The code point with a number that is known to be one. -/
def point (n : Nat) : Point := (Point.ofNat? n).getD default

/-- Decodes the bytes from a position on; what is done stands in reverse. -/
def decodeFrom : List UInt8 → Nat → Text → Except Defect Text
  | [], _, done => .ok done.reverse
  | a :: r, pos, done =>
    if a < 0x80 then decodeFrom r (pos + 1) (.scalar (Char.ofUInt8 a) :: done)
    else if a < 0xC2 || 0xF4 < a then .error ⟨pos, 1, a, .start⟩
    else match r with
      | [] => .error ⟨pos, 1, a, .ending⟩
      | b :: r =>
        if !follows a b then .error ⟨pos, 1, a, .continuation⟩
        else if a < 0xE0 then
          decodeFrom r (pos + 2) (point (a.toNat % 0x20 * 0x40 + payload b) :: done)
        else match r with
          | [] => .error ⟨pos, 2, a, .ending⟩
          | c :: r =>
            if !isTail c then .error ⟨pos, 2, a, .continuation⟩
            else if a < 0xF0 then
              decodeFrom r (pos + 3)
                (point ((a.toNat % 0x10 * 0x40 + payload b) * 0x40 + payload c) :: done)
            else match r with
              | [] => .error ⟨pos, 3, a, .ending⟩
              | d :: r =>
                if !isTail d then .error ⟨pos, 3, a, .continuation⟩
                else
                  decodeFrom r (pos + 4)
                    (point (((a.toNat % 0x08 * 0x40 + payload b) * 0x40 + payload c) * 0x40
                      + payload d) :: done)

/-- The text of a sequence of bytes, or its first defect. -/
def decode (bytes : List UInt8) : Except Defect Text := decodeFrom bytes 0 []

/-- Turns the line ends of the rest of a text into line feeds; what is done stands in reverse. -/
def lineFeedsFrom : Text → Text → Text
  | [], done => done.reverse
  | .scalar '\r' :: .scalar '\n' :: r, done => lineFeedsFrom r ('\n' :: done)
  | c :: r, done => lineFeedsFrom r ((if c = .scalar '\r' then .scalar '\n' else c) :: done)

/-- The text with a line feed for each carriage return, and one for each pair of a carriage return
and a line feed. -/
def lineFeeds (t : Text) : Text := lineFeedsFrom t []

/-- The text of a file. -/
def read (bytes : List UInt8) : Except Defect Text := (decode bytes).map lineFeeds

/-- The bytes of a code point; a lone surrogate gets the bytes of its number. -/
def encodePoint (p : Point) : List UInt8 :=
  let n := p.val
  let tail (k : Nat) : UInt8 := .ofNat (0x80 + n / k % 0x40)
  if n < 0x80 then [.ofNat n]
  else if n < 0x800 then [.ofNat (0xC0 + n / 0x40), tail 1]
  else if n < 0x10000 then [.ofNat (0xE0 + n / 0x1000), tail 0x40, tail 1]
  else [.ofNat (0xF0 + n / 0x40000), tail 0x1000, tail 0x40, tail 1]

/-- The lone surrogates that keep a text from being encoded: the position of the first, the number
of neighbours that are surrogates too, and the first itself. -/
structure Obstacle where
  /-- The position of the first surrogate. -/
  first : Nat
  /-- The length of the run of surrogates. -/
  count : Nat
  /-- The number of the first surrogate. -/
  value : Nat
  deriving DecidableEq

/-- The words for an obstacle. -/
def Obstacle.message (o : Obstacle) : Text :=
  "'utf-8' codec can't encode " ++
    (if o.count == 1 then
      ("character '\\u" : Text) ++ Text.hex 4 o.value ++ "' in position " ++ Text.ofNat o.first
    else
      ("characters in position " : Text) ++ Text.ofNat o.first ++ "-" ++
        Text.ofNat (o.first + o.count - 1)) ++
    ": surrogates not allowed"

/-- The code point is a lone surrogate. -/
def isLone : Point → Bool
  | .scalar _ => false
  | .surrogate _ => true

/-- The bytes of a text, or what keeps it from being encoded. -/
def encode (t : Text) : Except Obstacle (List UInt8) :=
  match t.span (!isLone ·) with
  | (_, []) => .ok (t.flatMap encodePoint)
  | (before, s :: r) =>
    .error ⟨before.length, ((s :: r).takeWhile isLone).length, s.val⟩

/-- A surrogate that stands for a byte of a name that is no UTF-8. -/
def isEscapedByte (p : Point) : Bool := 0xDC80 ≤ p.val && p.val ≤ 0xDCFF

/-- What keeps a name from being encoded, if surrogates that stand for bytes are encoded as these.
The run of surrogates is counted from the first one at fault. -/
def nameObstacle? (t : Text) : Option Obstacle :=
  let fine (p : Point) : Bool := !isLone p || isEscapedByte p
  match t.span fine with
  | (_, []) => none
  | (before, s :: r) => some ⟨before.length, ((s :: r).takeWhile isLone).length, s.val⟩

/-- The code point that bytes begin with, and the number of its further bytes. -/
def firstPoint? (bytes : List UInt8) : Option (Point × Nat) :=
  (List.range 4).findSome? fun k =>
    match decode (bytes.take (k + 1)) with
    | .ok [p] => some (p, k)
    | _ => none

/-- Decodes the bytes of a name, after a number of bytes that are done with. -/
def nameFrom : Nat → List UInt8 → Text
  | _, [] => []
  | k + 1, _ :: r => nameFrom k r
  | 0, a :: r =>
    match firstPoint? (a :: r) with
    | some (p, k) => p :: nameFrom k r
    | none => point (0xDC00 + a.toNat) :: nameFrom 0 r

/-- The text of a name that is given by its bytes. A surrogate stands for each byte that is no part
of UTF-8. -/
def name (bytes : List UInt8) : Text := nameFrom 0 bytes

/-- The number of bytes that are taken from a file at once when it is read bit by bit. -/
def pieceSize : Nat := 8192

/-- Decodes pieces, given the bytes before them that are not decoded yet. A defect is counted from
the first of those bytes. -/
def decodePieces : Nat → List UInt8 → List UInt8 → List Text → Except Defect Text
  | 0, pending, _, done => (decode pending).map fun t => ((t :: done).reverse).flatten
  | bound + 1, pending, rest, done =>
    match rest with
    | [] => (decode pending).map fun t => ((t :: done).reverse).flatten
    | _ =>
      let bytes := pending ++ rest.take pieceSize
      match decode bytes with
      | .ok t => decodePieces bound [] (rest.drop pieceSize) (t :: done)
      | .error d =>
        -- The bytes end inside a sequence, which may go on in the next piece.
        if d.reason == .ending then
          match decode (bytes.take d.first) with
          | .ok t => decodePieces bound (bytes.drop d.first) (rest.drop pieceSize) (t :: done)
          | .error d => .error d
        else .error d

/-- The text of a file that is read bit by bit. -/
def readPieces (bytes : List UInt8) : Except Defect Text :=
  (decodePieces (bytes.length / pieceSize + 1) [] bytes []).map lineFeeds

end SurfaceAudit.Utf8
