import SurfaceAudit.Yaml.Token

/-!
# Reading scalars

Scalars in quotes, scalars with indicators and plain scalars. A line break inside a scalar in quotes
or a plain one becomes a blank, unless empty lines follow, which stay as line feeds.
-/

namespace SurfaceAudit.Yaml

/-- The text of the pieces, which stand in reverse. -/
def gather (pieces : List Text) : Text := pieces.reverse.flatten

/-- How a line break and the empty lines after it are written inside a scalar. -/
def folded (first : Point) (more : List Text) : List Text :=
  (if first != '\n' then [[first]] else if more.isEmpty then [[.scalar ' ']] else []) ++ more

/-- The code point for a letter after a backslash in double quotes. -/
def escapes : List (Char × Nat) :=
  [('0', 0), ('a', 7), ('b', 8), ('t', 9), ('\t', 9), ('n', 10), ('v', 11), ('f', 12), ('r', 13),
    ('e', 0x1B), (' ', 0x20), ('"', 0x22), ('\\', 0x5C), ('/', 0x2F), ('N', 0x85), ('_', 0xA0),
    ('L', 0x2028), ('P', 0x2029)]

/-- The number of digits after a letter of an escape by number. -/
def escapeDigits? (p : Point) : Option Nat :=
  if p == 'x' then some 2 else if p == 'u' then some 4 else if p == 'U' then some 8 else none

/-- The code point with the number of an escape. -/
def numbered (n : Nat) : Except Failure Point :=
  match Point.ofNat? n with
  | some p => .ok p
  | none => .error (.fault (if n < 0x80000000 then .notCodePoint else .codePointSize))

/-- The empty lines at a place inside quotes. The marks between documents must not stand there. -/
def quotedBreaks : Nat → Place → List Text → Step (List Text)
  | 0, _, _ => .error .malformed
  | bound + 1, p, done =>
    if p.atDocumentMark then .error .malformed
    else
      let p := (p.run fun c => c == ' ' || c == '\t').2
      match p.lineBreak? with
      | some (c, p) => quotedBreaks bound p ([c] :: done)
      | none => .ok (done.reverse, p)

/-- An escape in double quotes, after the backslash. -/
def doubleEscape (p : Place) : Step (List Text) :=
  match p.here? with
  | none => .error .malformed
  | some c =>
    match escapes.find? fun e => c == e.1 with
    | some (_, n) => (numbered n).map fun q => ([[q]], p.next)
    | none =>
      match escapeDigits? c with
      | some n =>
        let digits := p.next.rest.take n
        if digits.length < n then .error .malformed
        else match digits.foldlM (fun v d => (Point.hexDigit? d).map (v * 16 + ·)) 0 with
          | none => .error .malformed
          | some v => (numbered v).map fun q => ([[q]], p.next.forward n)
      | none =>
        match p.lineBreak? with
        | some (_, p) => quotedBreaks (p.rest.length + 1) p []
        | none => .error .malformed

/-- Reads a scalar in quotes after the opening quote, with the pieces read so far in reverse. -/
def quotedFrom (double : Bool) : Nat → Place → List Text → Step Text
  | 0, _, _ => .error .malformed
  | bound + 1, p, pieces =>
    let stops (c : Point) : Bool :=
      c == '\'' || c == '"' || c == '\\' || c == ' ' || c == '\t' || isBreak c
    let (t, p) := p.run (!stops ·)
    let pieces := if t.isEmpty then pieces else t :: pieces
    match p.here? with
    | none => .error .malformed
    | some c =>
      if c == (if double then '"' else '\'') then
        if !double && p.ahead? 1 == some (.scalar '\'') then
          quotedFrom double bound (p.forward 2) ([.scalar '\''] :: pieces)
        else .ok (gather pieces, p.next)
      else if c == '\'' || c == '"' || (c == '\\' && !double) then
        quotedFrom double bound p.next ([c] :: pieces)
      else if c == '\\' then
        match doubleEscape p.next with
        | .error e => .error e
        | .ok (more, p) => quotedFrom double bound p (more.reverse ++ pieces)
      else
        let (blanks, p) := p.run fun c => c == ' ' || c == '\t'
        match p.lineBreak? with
        | none =>
          if p.atEnd then .error .malformed else quotedFrom double bound p (blanks :: pieces)
        | some (first, p) =>
          match quotedBreaks (p.rest.length + 1) p [] with
          | .error e => .error e
          | .ok (more, p) =>
            quotedFrom double bound p ((folded first more).reverse ++ pieces)

/-- Reads a scalar in quotes at its opening quote. -/
def quotedScalar (double : Bool) (p : Place) : Step Text :=
  quotedFrom double (p.rest.length + 1) p.next []

/-- How a scalar with an indicator ends: without line feeds, with one, or with all of them. -/
inductive Chomp where
  /-- All line feeds at the end are dropped. -/
  | strip
  /-- The first line feed at the end stays. -/
  | clip
  /-- All line feeds at the end stay. -/
  | keep
  deriving DecidableEq

/-- Reads the sign that says how a scalar ends. -/
def chomp? (p : Place) : Option (Chomp × Place) :=
  if p.isAt '+' then some (.keep, p.next)
  else if p.isAt '-' then some (.strip, p.next)
  else none

/-- Reads the digit that says how far a scalar is indented; a zero is malformed. -/
def increment? (p : Place) : Except Failure (Option (Nat × Place)) :=
  match p.here? with
  | some c =>
    if c == '0' then .error .malformed
    else if c.isAsciiDigit then .ok (some (c.val - 48, p.next))
    else .ok none
  | none => .ok none

/-- Reads the sign and the digit after the indicator of a scalar, in either order. -/
def blockHeader (p : Place) : Except Failure (Chomp × Option Nat × Place) := do
  match chomp? p with
  | some (c, p) =>
    match ← increment? p with
    | some (n, p) => return (c, some n, p)
    | none => return (c, none, p)
  | none =>
    match ← increment? p with
    | some (n, p) =>
      match chomp? p with
      | some (c, p) => return (c, some n, p)
      | none => return (.clip, some n, p)
    | none => return (.clip, none, p)

/-- The place on the next line, if only blanks and a comment are left of this one. -/
def restOfLine (p : Place) : Except Failure Place :=
  let p := p.skipBlanks
  let p := if p.isAt '#' then p.toLineEnd else p
  match p.lineBreak? with
  | some (_, p) => .ok p
  | none => if p.atEnd then .ok p else .error .malformed

/-- Reads the lines before the first one with a text, and the greatest indentation among them. -/
def leadingLines : Nat → Place → List Text → Nat → List Text × Nat × Place
  | 0, p, done, width => (done.reverse, width, p)
  | bound + 1, p, done, width =>
    if p.isAt ' ' then
      let p := p.next
      leadingLines bound p done (max width p.column)
    else match p.lineBreak? with
      | some (c, p) => leadingLines bound p ([c] :: done) width
      | none => (done.reverse, width, p)

/-- The place after blanks up to a column. -/
def indentTo (column : Nat) (p : Place) : Place :=
  p.forward ((p.rest.take (column - p.column)).takeWhile (· == Point.scalar ' ')).length

/-- Reads the empty lines before a line that is indented up to a column. -/
def emptyLines (column : Nat) : Nat → Place → List Text → List Text × Place
  | 0, p, done => (done.reverse, p)
  | bound + 1, p, done =>
    let p := indentTo column p
    match p.lineBreak? with
    | some (c, p) => emptyLines column bound p ([c] :: done)
    | none => (done.reverse, p)

/-- Reads the lines of a scalar with an indicator. `breaks` are the empty lines before this one, and
`done` the pieces before them in reverse. The answer has the pieces in reverse, the line break after
the last line, and the empty lines after that. -/
def blockLines (fold : Bool) (indent : Nat) :
    Nat → Place → List Text → List Text → List Text × Text × List Text × Place
  | 0, p, breaks, done => (done, [], breaks, p)
  | bound + 1, p, breaks, done =>
    let inner (q : Place) : Bool := !(q.isAt ' ' || q.isAt '\t')
    let leading := inner p
    let (t, q) := p.run (!isBreak ·)
    let done := t :: (breaks.reverse ++ done)
    let (ended, q) : Text × Place := match q.lineBreak? with
      | some (c, q) => ([c], q)
      | none => ([], q)
    let (breaks, q) := emptyLines indent (q.rest.length + 1) q []
    if q.column == indent && !q.atEnd then
      let glue : List Text :=
        if fold && ended == ("\n" : Text) && leading && inner q then
          if breaks.isEmpty then [[.scalar ' ']] else []
        else [ended]
      blockLines fold indent bound q breaks (glue ++ done)
    else (done, ended, breaks, q)

/-- Reads a scalar with an indicator at it, inside collections indented by `indent`. -/
def blockScalar (fold : Bool) (indent : Int) (p : Place) : Except Failure (Text × Place) := do
  let (chomp, increment, p) ← blockHeader p.next
  if !isGapNoTab p.here? then .error .malformed
  else
    let p ← restOfLine p
    let least := (max (indent + 1) 1).toNat
    let (breaks, column, p) := match increment with
      | some n =>
        let column := least + n - 1
        let (breaks, p) := emptyLines column (p.rest.length + 1) p []
        (breaks, column, p)
      | none =>
        let (breaks, width, p) := leadingLines (p.rest.length + 1) p [] 0
        (breaks, max least width, p)
    let (done, ended, breaks, p) :=
      if p.column == column && !p.atEnd then
        blockLines fold column (p.rest.length + 1) p breaks []
      else ([], [], breaks, p)
    let done := if chomp == .strip then done else ended :: done
    let done := if chomp == .keep then breaks.reverse ++ done else done
    return (gather done, p)

/-- The piece of a plain scalar at the start of a text, inside brackets or not: up to a gap, a colon
before one, and inside brackets up to an indicator of theirs. -/
def plainPiece (flow : Bool) : Text → Text → Text
  | [], done => done.reverse
  | c :: r, done =>
    let closes : Bool := match r.head? with
      | some d => flow && (d == ',' || d == '[' || d == ']' || d == '{' || d == '}')
      | none => false
    if isGap (some c) || (c == ':' && (isGap r.head? || closes)) ||
        (flow && (c == ',' || c == '?' || c == '[' || c == ']' || c == '{' || c == '}')) then
      done.reverse
    else plainPiece flow r (c :: done)

/-- The line breaks and blanks at a place inside a plain scalar. Nothing is returned for the breaks
if the marks between documents stand there. -/
def plainBreaks : Nat → Place → List Text → Option (List Text) × Place
  | 0, p, done => (some done.reverse, p)
  | bound + 1, p, done =>
    if p.isAt ' ' then plainBreaks bound p.next done
    else match p.lineBreak? with
      | some (c, p) =>
        if p.atDocumentMark then (none, p) else plainBreaks bound p ([c] :: done)
      | none => (some done.reverse, p)

/-- What stands between two pieces of a plain scalar, the place after it, and whether a line ended.
Nothing ends the scalar. -/
def plainGap (p : Place) : List Text × Place × Bool :=
  let (blanks, p) := p.run (· == ' ')
  match p.lineBreak? with
  | some (first, p) =>
    if p.atDocumentMark then ([], p, true)
    else match plainBreaks (p.rest.length + 1) p [] with
      | (none, p) => ([], p, true)
      | (some more, p) => (folded first more, p, true)
  | none => (if blanks.isEmpty then [] else [blanks], p, false)

/-- Reads the pieces of a plain scalar. `gap` stands before the piece, `done` are the pieces before
it in reverse, and `fresh` says that a line ended after the last piece. -/
def plainFrom (flow : Bool) (indent : Int) :
    Nat → Place → List Text → List Text → Bool → Text × Bool × Place
  | 0, p, _, done, fresh => (gather done, fresh, p)
  | bound + 1, p, gap, done, fresh =>
    if p.isAt '#' then (gather done, fresh, p)
    else
      let t := plainPiece flow p.rest []
      if t.isEmpty then (gather done, fresh, p)
      else
        let done := t :: (gap.reverse ++ done)
        let (gap, p, fresh) := plainGap (p.forward t.length)
        if gap.isEmpty || p.isAt '#' || (!flow && (p.column : Int) < indent + 1) then
          (gather done, fresh, p)
        else plainFrom flow indent bound p gap done fresh

/-- Reads a plain scalar: its text, whether a line ended after it, and the place after it. -/
def plainScalar (flow : Bool) (indent : Int) (p : Place) : Text × Bool × Place :=
  plainFrom flow indent (p.rest.length + 1) p [] [] false

end SurfaceAudit.Yaml
