import SurfaceAudit.Text.Case
import SurfaceAudit.Text.Lines

/-!
# Fenced blocks

A fenced block of a document begins with a line of at least three backticks or tildes and ends with
a line of as many of the same, or with the document. The word after the opening fence is the
language of the block.
-/

namespace SurfaceAudit.Markdown

/-- An opening fence. -/
structure Fence where
  /-- The code point that the fence consists of. -/
  mark : Point
  /-- The number of them. -/
  length : Nat
  /-- What stands after the fence. -/
  info : Text
  deriving DecidableEq

/-- A code point that fences consist of. -/
def isMark (p : Point) : Bool := p == '`' || p == '~'

/-- The line without up to three blanks of indentation; a line that is indented further begins no
fence. -/
def unindent (line : Text) : Option Text :=
  let n := (line.takeWhile (· == Point.scalar ' ')).length
  if 3 < n then none else some (line.drop n)

/-- The run of marks at the start of a line, if it is long enough for a fence, and what follows. -/
def fenceRun? (line : Text) : Option (Point × Nat × Text) :=
  match unindent line with
  | none => none
  | some [] => none
  | some (m :: r) =>
    let n := (r.takeWhile (· == m)).length + 1
    if isMark m && 3 ≤ n then some (m, n, r.drop (n - 1)) else none

namespace Fence

/-- The fence that a line opens. After backticks no further backtick may stand on the line. -/
def open? (line : Text) : Option Fence :=
  match fenceRun? line with
  | none => none
  | some (m, n, rest) =>
    if m == '`' && rest.contains (.scalar '`') then none
    else some ⟨m, n, Text.trimLeft Point.isBlank rest⟩

/-- A line closes the block: a run of the same marks, as long at least, and blanks. -/
def isClosedBy (f : Fence) (line : Text) : Bool :=
  match fenceRun? line with
  | none => false
  | some (m, n, rest) => m == f.mark && f.length ≤ n && rest.all Point.isBlank

/-- Braces and dots around the name of a language. -/
def isTrimming (p : Point) : Bool := p == '{' || p == '}' || p == '.'

/-- The language of the block: the first word after the fence, without braces and dots, in small
letters. -/
def language (f : Fence) : Text :=
  match f.info.words with
  | [] => []
  | w :: _ => (w.trim isTrimming).lower

/-- The languages whose lines are commands; a block without a language counts too. -/
def shells : List Text := ["", "bash", "sh", "shell", "zsh", "console"]

/-- The lines of the block are commands. -/
def isExecutable (f : Fence) : Bool := shells.contains f.language

end Fence

/-- A line of a block. -/
structure BlockLine where
  /-- The number of the line, counted from 1. -/
  number : Nat
  /-- The fence that opens the block. -/
  fence : Fence
  /-- The line. -/
  text : Text
  deriving DecidableEq

/-- The lines inside of blocks among some lines, given the number of the first line and the block
that is open before it. -/
def blockLinesFrom (number : Nat) (inside : Option Fence) : List Text → List BlockLine
  | [] => []
  | line :: r =>
    match inside with
    | none => blockLinesFrom (number + 1) (Fence.open? line) r
    | some f =>
      if f.isClosedBy line then blockLinesFrom (number + 1) none r
      else ⟨number, f, line⟩ :: blockLinesFrom (number + 1) (some f) r

/-- The lines inside of the blocks of a document. -/
def blockLines (t : Text) : List BlockLine := blockLinesFrom 1 none t.lines

end SurfaceAudit.Markdown
