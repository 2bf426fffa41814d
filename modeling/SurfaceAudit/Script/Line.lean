import SurfaceAudit.Text.Lines

/-!
# Reading lines of scripts

A line is read from its start: a word that is expected there, or a run of code points of a class.
Each reader gives what follows, or nothing if the line begins otherwise.
-/

namespace SurfaceAudit.Script

/-- The text after a word at its start. -/
def after? (word t : Text) : Option Text :=
  if word.isPrefixOf t then some (t.drop word.length) else none

/-- At least one code point of a class at the start of a text, and what follows them. -/
def run? (f : Point → Bool) (t : Text) : Option (Text × Text) :=
  let n := (t.takeWhile f).length
  if n == 0 then none else some (t.take n, t.drop n)

/-- The text after at least one blank. -/
def afterBlanks? (t : Text) : Option Text := (run? Point.isBlank t).map (·.2)

/-- The text does not go on with a word. -/
def endsWord (t : Text) : Bool := !(t.head?.map Point.isWord).getD false

end SurfaceAudit.Script
