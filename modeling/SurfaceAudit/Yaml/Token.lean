import SurfaceAudit.Fault

/-!
# Tokens of YAML

The tokens of a YAML stream, and the place in a text where the reading of tokens stands. Places know
their line and column, since indentation decides where collections end.
-/

namespace SurfaceAudit.Yaml

/-- Why a text gives no document. -/
inductive Failure where
  /-- The text is not YAML. -/
  | malformed
  /-- The text is YAML up to a value that there is not. -/
  | fault (f : Fault)
  deriving DecidableEq

/-- What a directive says. -/
inductive Directive where
  /-- The version of YAML. -/
  | version (major minor : Nat)
  /-- A handle for the start of tags. -/
  | handle (name start : Text)
  /-- Something else, which is passed over. -/
  | other
  deriving DecidableEq

/-- A token. -/
inductive Token where
  /-- A directive before a document. -/
  | directive (d : Directive)
  /-- The mark before a document. -/
  | documentStart
  /-- The mark after a document. -/
  | documentEnd
  /-- The end of the stream. -/
  | streamEnd
  /-- The start of a sequence by indentation. -/
  | blockSequenceStart
  /-- The start of a mapping by indentation. -/
  | blockMappingStart
  /-- The end of a collection by indentation. -/
  | blockEnd
  /-- The bracket before a sequence. -/
  | flowSequenceStart
  /-- The brace before a mapping. -/
  | flowMappingStart
  /-- The bracket after a sequence. -/
  | flowSequenceEnd
  /-- The brace after a mapping. -/
  | flowMappingEnd
  /-- The start of a key. -/
  | key
  /-- The start of a value. -/
  | value
  /-- The dash before an element. -/
  | blockEntry
  /-- The comma after an element. -/
  | flowEntry
  /-- A reference to a node by its name. -/
  | alias (name : Text)
  /-- The name of a node. -/
  | anchor (name : Text)
  /-- The tag of a node: a handle, if it has one, and the rest. -/
  | tag (handle : Option Text) (suffix : Text)
  /-- A scalar, and whether it is written without quotes or indicators. -/
  | scalar (text : Text) (plain : Bool)
  deriving DecidableEq

/-- A line break of YAML. -/
def isBreak (p : Point) : Bool :=
  p == '\r' || p == '\n' || p.val == 0x85 || p.val == 0x2028 || p.val == 0x2029

/-- A place in a text. -/
structure Place where
  /-- The text from the place on. -/
  rest : Text
  /-- The number of code points before the place. -/
  index : Nat
  /-- The number of lines before the place. -/
  line : Nat
  /-- The number of code points before the place in its line. -/
  column : Nat

namespace Place

/-- The place at the start of a text. -/
def start (t : Text) : Place := ⟨t, 0, 0, 0⟩

/-- The code point at the place. -/
def here? (p : Place) : Option Point := p.rest.head?

/-- The code point some places further. -/
def ahead? (p : Place) (n : Nat) : Option Point := p.rest[n]?

/-- The place after the next code point. A byte order mark takes no column, and a carriage return
ends no line before a line feed. -/
def next (p : Place) : Place :=
  match p.rest with
  | [] => p
  | c :: r =>
    if isBreak c && !(c == '\r' && r.head? == some (.scalar '\n')) then
      ⟨r, p.index + 1, p.line + 1, 0⟩
    else ⟨r, p.index + 1, p.line, if c.val == 0xFEFF then p.column else p.column + 1⟩

/-- The place after some code points. -/
def forward (p : Place) : Nat → Place
  | 0 => p
  | n + 1 => p.next.forward n

/-- The place is at the end of the text. -/
def atEnd (p : Place) : Bool := p.rest.isEmpty

/-- The code point at the place belongs to a class. -/
def isAt (p : Place) (c : Char) : Bool := p.here? == some (.scalar c)

/-- The longest run of a class at the place, and the place after it. -/
def run (p : Place) (f : Point → Bool) : Text × Place :=
  let t := p.rest.takeWhile f
  (t, p.forward t.length)

/-- The place after the blanks at it. -/
def skipBlanks (p : Place) : Place := (p.run (· == ' ')).2

/-- The place at the end of the line. -/
def toLineEnd (p : Place) : Place := (p.run (!isBreak ·)).2

/-- The line break at the place and the place after it. A pair of carriage return and line feed, and
each of the two, is a line feed; the line and paragraph separators stay. -/
def lineBreak? (p : Place) : Option (Point × Place) :=
  match p.rest with
  | .scalar '\r' :: .scalar '\n' :: _ => some (.scalar '\n', p.forward 2)
  | c :: _ =>
    if c.val == 0x2028 || c.val == 0x2029 then some (c, p.next)
    else if isBreak c then some (.scalar '\n', p.next)
    else none
  | [] => none

end Place

/-- What a scalar or word ends before: the end of the text, a blank, a tab or a line break. -/
def isGap : Option Point → Bool
  | none => true
  | some c => c == ' ' || c == '\t' || isBreak c

/-- The end of the text, a blank or a line break, but not a tab. -/
def isGapNoTab : Option Point → Bool
  | none => true
  | some c => c == ' ' || isBreak c

/-- The place is at the marks between documents, alone on their line. -/
def Place.atDocumentMark (p : Place) : Bool :=
  let three := p.rest.take 3
  (three == ("---" : Text) || three == ("..." : Text)) && isGap (p.ahead? 3)

/-- A step of reading: what is read, and the place after it. -/
abbrev Step (α : Type) := Except Failure (α × Place)

end SurfaceAudit.Yaml
