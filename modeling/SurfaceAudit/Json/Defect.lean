import SurfaceAudit.Text.Point

/-!
# Defects of JSON texts

A defect names what was expected or found and the place, counted in code points from the start of
the text and as line and column.
-/

namespace SurfaceAudit.Json

/-- What is wrong with a text that should be JSON. -/
inductive Reason where
  /-- No value begins here. -/
  | value
  /-- No key begins here. -/
  | key
  /-- The colon after a key is missing. -/
  | colon
  /-- The comma or the end after an element is missing. -/
  | comma
  /-- Something stands after the value. -/
  | extra
  /-- A string has no end. -/
  | unterminated
  /-- A control character stands in a string. -/
  | control
  /-- No escape is written so. -/
  | escape
  /-- An escape by number lacks digits. -/
  | number
  /-- The text begins with a byte order mark. -/
  | mark
  deriving DecidableEq

/-- A defect and its place. -/
structure Defect where
  /-- What is wrong. -/
  reason : Reason
  /-- The number of code points before the place. -/
  position : Nat
  /-- The line, counted from 1. -/
  line : Nat
  /-- The column, counted from 1. -/
  column : Nat
  deriving DecidableEq

/-- The words for a reason. -/
def Reason.message : Reason → Text
  | .value => "Expecting value"
  | .key => "Expecting property name enclosed in double quotes"
  | .colon => "Expecting ':' delimiter"
  | .comma => "Expecting ',' delimiter"
  | .extra => "Extra data"
  | .unterminated => "Unterminated string starting at"
  | .control => "Invalid control character at"
  | .escape => "Invalid \\escape"
  | .number => "Invalid \\uXXXX escape"
  | .mark => "Unexpected UTF-8 BOM (decode using utf-8-sig)"

/-- The words for a defect: the reason and the place. -/
def Defect.message (d : Defect) : Text :=
  d.reason.message ++ ": line " ++ Text.ofNat d.line ++ " column " ++ Text.ofNat d.column ++
    " (char " ++ Text.ofNat d.position ++ ")"

/-- The defect at a place of a text. -/
def Defect.at (text : Text) (reason : Reason) (position : Nat) : Defect :=
  let before := text.take position
  let column := (before.reverse.takeWhile (· != Point.scalar '\n')).length + 1
  ⟨reason, position, before.count (Point.scalar '\n') + 1, column⟩

end SurfaceAudit.Json
