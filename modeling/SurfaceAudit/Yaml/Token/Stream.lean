import SurfaceAudit.Yaml.Token.Scalar

/-!
# Reading a stream of tokens

Tokens are read one after the other, with the indentation of the open collections. A scalar or
collection that turns out to be a key when its colon comes is remembered until then, together with
the place of its token; the start of the key, and of the mapping if it is the first key, is put
before that token. Such a key fits on one line and in 1024 code points.
-/

namespace SurfaceAudit.Yaml

/-- Something that is a key if a colon follows. -/
structure PossibleKey where
  /-- The number of tokens before it. -/
  token : Nat
  /-- It has to be a key, since a mapping with its indentation is open. -/
  required : Bool
  /-- The number of code points before it. -/
  index : Nat
  /-- The line it stands on. -/
  line : Nat
  /-- The column it begins in. -/
  column : Nat

/-- The state of the reading of tokens. -/
structure Lexer where
  /-- The place in the text. -/
  place : Place
  /-- The tokens read. -/
  tokens : Array Token
  /-- The number of open brackets and braces. -/
  flow : Nat
  /-- The indentation of the innermost collection. -/
  indent : Int
  /-- The indentations of the collections around it. -/
  indents : List Int
  /-- A key may begin here. -/
  allowKey : Bool
  /-- The possible keys, each with the number of brackets around it. -/
  keys : List (Nat × PossibleKey)

/-- A step of reading tokens. -/
abbrev Lexing := Except Failure Lexer

namespace Lexer

/-- The state at the start of a text. -/
def start (t : Text) : Lexer := ⟨Place.start t, #[], 0, -1, [], true, []⟩

/-- The state with one more token. -/
def emit (l : Lexer) (t : Token) : Lexer := { l with tokens := l.tokens.push t }

/-- The state with a token put before those from a number on. -/
def insert (l : Lexer) (n : Nat) (t : Token) : Lexer :=
  { l with tokens := (l.tokens.take n).push t ++ l.tokens.drop n }

/-- The state some code points further. -/
def forward (l : Lexer) (n : Nat) : Lexer := { l with place := l.place.forward n }

/-- The column of the place. -/
def column (l : Lexer) : Int := l.place.column

/-- Passes over blanks, comments and line breaks. After a line break a key may begin, except inside
brackets. -/
def skipGap : Nat → Lexer → Lexer
  | 0, l => l
  | bound + 1, l =>
    let p := l.place.skipBlanks
    let p := if p.isAt '#' then p.toLineEnd else p
    match p.lineBreak? with
    | some (_, p) =>
      skipGap bound { l with place := p, allowKey := l.flow == 0 || l.allowKey }
    | none => { l with place := p }

/-- Passes over what stands before the next token, a byte order mark at the start included. -/
def toToken (l : Lexer) : Lexer :=
  let l := if l.place.index == 0 && l.place.here? == some (.scalar '\uFEFF') then l.forward 1 else l
  skipGap (l.place.rest.length + 1) l

/-- Forgets the possible keys on earlier lines or too far back. -/
def dropStaleKeys (l : Lexer) : Lexing :=
  let stale (k : PossibleKey) : Bool := k.line != l.place.line || 1024 < l.place.index - k.index
  if l.keys.any fun k => stale k.2 && k.2.required then .error .malformed
  else .ok { l with keys := l.keys.filter fun k => !stale k.2 }

/-- Forgets the possible key inside the innermost brackets. -/
def dropKey (l : Lexer) : Lexing :=
  if l.keys.any fun k => k.1 == l.flow && k.2.required then .error .malformed
  else .ok { l with keys := l.keys.filter (·.1 != l.flow) }

/-- Remembers that what comes next may be a key. -/
def saveKey (l : Lexer) : Lexing :=
  if l.allowKey then do
    let l ← l.dropKey
    -- At the indentation of an open mapping nothing but a key can stand.
    let required := l.flow == 0 && l.indent == l.column
    let key := ⟨l.tokens.size, required, l.place.index, l.place.line, l.place.column⟩
    return { l with keys := (l.flow, key) :: l.keys }
  else .ok l

/-- Closes collections, given the indentations around them. -/
def unwindFrom (column : Int) : List Int → Int → Array Token → Int × List Int × Array Token
  | [], indent, tokens => (indent, [], tokens)
  | outer :: r, indent, tokens =>
    if column < indent then unwindFrom column r outer (tokens.push .blockEnd)
    else (indent, outer :: r, tokens)

/-- Closes the collections that are indented further than a column. -/
def unwind (l : Lexer) (column : Int) : Lexer :=
  if l.flow != 0 then l
  else
    let (indent, indents, tokens) := unwindFrom column l.indents l.indent l.tokens
    { l with indent := indent, indents := indents, tokens := tokens }

/-- Opens a collection at a column, if it is indented further than the innermost one. -/
def open? (l : Lexer) (column : Int) : Option Lexer :=
  if l.indent < column then
    some { l with indent := column, indents := l.indent :: l.indents }
  else none

/-- Opens a collection at the place with the token for its start, if it is indented further. -/
def openHere (l : Lexer) (t : Token) : Lexer :=
  match l.open? l.column with
  | some l => l.emit t
  | none => l

/-- Closes all collections before a mark or a directive, after which no key may follow. -/
def closeAll (l : Lexer) : Lexing := do
  let l ← (l.unwind (-1)).dropKey
  return { l with allowKey := false }

/-- Reads the end of the stream. -/
def endStream (l : Lexer) : Lexing := do
  let l ← l.closeAll
  return ({ l with keys := [] }).emit .streamEnd

/-- Reads a mark between documents. -/
def documentMark (l : Lexer) (t : Token) : Lexing := do
  let l ← l.closeAll
  return (l.forward 3).emit t

/-- Reads a bracket or brace that opens. -/
def openFlow (l : Lexer) (t : Token) : Lexing := do
  let l ← l.saveKey
  return ({ l with flow := l.flow + 1, allowKey := true }.forward 1).emit t

/-- Reads a bracket or brace that closes. -/
def closeFlow (l : Lexer) (t : Token) : Lexing := do
  if l.flow == 0 then .error .malformed
  else
    let l ← l.dropKey
    return ({ l with flow := l.flow - 1, allowKey := false }.forward 1).emit t

/-- Reads a comma. -/
def flowEntry (l : Lexer) : Lexing := do
  let l ← l.dropKey
  return ({ l with allowKey := true }.forward 1).emit .flowEntry

/-- Reads a dash before an element. -/
def blockEntry (l : Lexer) : Lexing := do
  if l.flow == 0 && !l.allowKey then .error .malformed
  else
    let l := if l.flow == 0 then l.openHere .blockSequenceStart else l
    let l ← l.dropKey
    return ({ l with allowKey := true }.forward 1).emit .blockEntry

/-- Reads a question mark before a key. -/
def explicitKey (l : Lexer) : Lexing := do
  if l.flow == 0 && !l.allowKey then .error .malformed
  else
    let l := if l.flow == 0 then l.openHere .blockMappingStart else l
    let l ← l.dropKey
    return ({ l with allowKey := l.flow == 0 }.forward 1).emit .key

/-- Reads a colon after a key. -/
def mappingValue (l : Lexer) : Lexing := do
  match l.keys.find? (·.1 == l.flow) with
  | some (_, k) =>
    -- What was remembered is a key: its start goes before its token, and before that the start of
    -- the mapping, if this is its first key.
    let l := { l with keys := l.keys.filter (·.1 != l.flow) }.insert k.token .key
    let l := if l.flow != 0 then l else
      match l.open? k.column with
      | some l => l.insert k.token .blockMappingStart
      | none => l
    return ({ l with allowKey := false }.forward 1).emit .value
  | none =>
    -- A colon without a key before it, so the key is empty.
    if l.flow == 0 && !l.allowKey then .error .malformed
    else
      let l := if l.flow == 0 then l.openHere .blockMappingStart else l
      let l ← { l with allowKey := l.flow == 0 }.dropKey
      return (l.forward 1).emit .value

/-- Reads something that may be a key. -/
def content (l : Lexer) (read : Place → Step Token) : Lexing := do
  let l ← l.saveKey
  match read l.place with
  | .ok (t, p) => return { l with place := p, allowKey := false }.emit t
  | .error e => .error e

/-- Reads a scalar with an indicator. -/
def indicated (l : Lexer) (fold : Bool) : Lexing := do
  let l ← { l with allowKey := true }.dropKey
  match blockScalar fold l.indent l.place with
  | .ok (t, p) => return { l with place := p }.emit (.scalar t false)
  | .error e => .error e

/-- Reads a plain scalar. -/
def plain (l : Lexer) : Lexing := do
  let l ← l.saveKey
  let (t, fresh, p) := plainScalar (l.flow != 0) l.indent l.place
  return { l with place := p, allowKey := fresh }.emit (.scalar t true)

end Lexer

/-- A code point of a name: an ASCII letter or digit, a hyphen or an underscore. -/
def isNamePart (p : Point) : Bool := p.isAsciiLetter || p.isAsciiDigit || p == '-' || p == '_'

/-- Reads a name after its indicator. -/
def nodeName (make : Text → Token) (p : Place) : Step Token :=
  let (t, p) := p.next.run isNamePart
  let ends : Bool := isGap p.here? || match p.here? with
    | some c => ("?:,]\x7d%@`" : Text).contains c
    | none => true
  if t.isEmpty || !ends then .error .malformed else .ok (make t, p)

/-- Reads the bytes that are written by number in a tag. -/
def uriBytes : Nat → Place → List UInt8 → Step (List UInt8)
  | 0, p, done => .ok (done.reverse, p)
  | bound + 1, p, done =>
    if p.isAt '%' then
      match (p.ahead? 1).bind Point.hexDigit?, (p.ahead? 2).bind Point.hexDigit? with
      | some a, some b => uriBytes bound (p.forward 3) (.ofNat (a * 16 + b) :: done)
      | _, _ => .error .malformed
    else .ok (done.reverse, p)

/-- Reads the end of a tag. -/
def tagUri : Nat → Place → List Text → Step Text
  | 0, _, _ => .error .malformed
  | bound + 1, p, done =>
    let (t, p) := p.run fun c =>
      c.isAsciiLetter || c.isAsciiDigit || ("-;/?:@&=+$,_.!~*'()[]" : Text).contains c
    let done := if t.isEmpty then done else t :: done
    if p.isAt '%' then
      match uriBytes (p.rest.length + 1) p [] with
      | .error e => .error e
      | .ok (bytes, p) =>
        match Utf8.decode bytes with
        | .error _ => .error .malformed
        | .ok t => tagUri bound p (t :: done)
    else if done.isEmpty then .error .malformed
    else .ok (gather done, p)

/-- Reads the handle of a tag: an exclamation mark, or a name between two of them. -/
def tagHandle (p : Place) : Step Text :=
  if !p.isAt '!' then .error .malformed
  else if p.ahead? 1 == some (.scalar ' ') then .ok ("!", p.next)
  else
    let (name, q) := p.next.run isNamePart
    if q.isAt '!' then .ok (.scalar '!' :: name ++ [.scalar '!'], q.next) else .error .malformed

/-- Reads a tag. -/
def tag (p : Place) : Step Token :=
  let done (handle : Option Text) (suffix : Text) (p : Place) : Step Token :=
    if isGapNoTab p.here? then .ok (.tag handle suffix, p) else .error .malformed
  if p.ahead? 1 == some (.scalar '<') then
    match tagUri (p.rest.length + 1) (p.forward 2) [] with
    | .error e => .error e
    | .ok (suffix, p) => if p.isAt '>' then done none suffix p.next else .error .malformed
  else if isGap (p.ahead? 1) then done none "!" p.next
  else
    -- With a second exclamation mark in the word, what stands up to it is the handle.
    let word := (p.rest.drop 1).takeWhile fun c => !isGapNoTab (some c)
    let handle : Step Text := if word.contains (.scalar '!') then tagHandle p else .ok ("!", p.next)
    match handle with
    | .error e => .error e
    | .ok (handle, p) =>
      match tagUri (p.rest.length + 1) p [] with
      | .error e => .error e
      | .ok (suffix, p) => done (some handle) suffix p

/-- Reads a number of a version. -/
def versionNumber (p : Place) : Step Nat :=
  let (t, p) := p.run Point.isAsciiDigit
  if t.isEmpty then .error .malformed
  else .ok (t.foldl (fun n d => n * 10 + (d.val - 48)) 0, p)

/-- Reads what a directive says, after its name. -/
def directiveValue (name : Text) (p : Place) : Step Directive :=
  if name == ("YAML" : Text) then
    match versionNumber p.skipBlanks with
    | .error e => .error e
    | .ok (major, p) =>
      if !p.isAt '.' then .error .malformed
      else match versionNumber p.next with
        | .error e => .error e
        | .ok (minor, p) =>
          if isGapNoTab p.here? then .ok (.version major minor, p) else .error .malformed
  else if name == ("TAG" : Text) then
    match tagHandle p.skipBlanks with
    | .error e => .error e
    | .ok (handle, p) =>
      if !p.isAt ' ' then .error .malformed
      else
        let p := p.skipBlanks
        match tagUri (p.rest.length + 1) p [] with
        | .error e => .error e
        | .ok (start, p) =>
          if isGapNoTab p.here? then .ok (.handle handle start, p) else .error .malformed
  else .ok (.other, p.toLineEnd)

/-- Reads a directive. -/
def directive (p : Place) : Step Token :=
  let (name, p) := p.next.run isNamePart
  if name.isEmpty || !isGapNoTab p.here? then .error .malformed
  else match directiveValue name p with
    | .error e => .error e
    | .ok (d, p) =>
      match restOfLine p with
      | .error e => .error e
      | .ok p => .ok (.directive d, p)

/-- Reads a directive, before which all collections are closed. -/
def Lexer.directive (l : Lexer) : Lexing := do
  let l ← l.closeAll
  match Yaml.directive l.place with
  | .error e => .error e
  | .ok (t, p) => return { l with place := p }.emit t

/-- A plain scalar begins at the place, inside brackets or not. -/
def beginsPlain (flow : Bool) (p : Place) : Bool :=
  match p.here? with
  | none => false
  | some c =>
    (!isGap (some c) && !("-?:,[]\x7b\x7d#&*!|>'\"%@`" : Text).contains c) ||
      (!isGap (p.ahead? 1) && (c == '-' || (!flow && (c == '?' || c == ':'))))

/-- Reads the next token and those that it entails. -/
def Lexer.step (l : Lexer) : Lexing := do
  let l ← l.toToken.dropStaleKeys
  let l := l.unwind l.column
  let p := l.place
  let flow := l.flow != 0
  -- An indicator counts as one outside of brackets only if a gap follows.
  let lone := isGap (p.ahead? 1)
  match p.here? with
  | none => l.endStream
  | some c =>
    if c == '%' && p.column == 0 then l.directive
    else if p.column == 0 && p.atDocumentMark then
      l.documentMark (if c == '-' then .documentStart else .documentEnd)
    else if c == '[' then l.openFlow .flowSequenceStart
    else if c == '{' then l.openFlow .flowMappingStart
    else if c == ']' then l.closeFlow .flowSequenceEnd
    else if c == '}' then l.closeFlow .flowMappingEnd
    else if c == ',' then l.flowEntry
    else if c == '-' && lone then l.blockEntry
    else if c == '?' && (flow || lone) then l.explicitKey
    else if c == ':' && (flow || lone) then l.mappingValue
    else if c == '*' then l.content (nodeName .alias)
    else if c == '&' then l.content (nodeName .anchor)
    else if c == '!' then l.content tag
    else if c == '|' && !flow then l.indicated false
    else if c == '>' && !flow then l.indicated true
    else if c == '\'' || c == '"' then
      l.content fun p => (quotedScalar (c == '"') p).map fun (t, p) => (.scalar t false, p)
    else if beginsPlain flow p then l.plain
    else .error .malformed

/-- Reads tokens up to the end of the stream or to a failure. -/
def Lexer.run : Nat → Lexer → Array Token × Option Failure
  | 0, l => (l.tokens, some .malformed)
  | bound + 1, l =>
    match l.step with
    | .error e => (l.tokens, some e)
    | .ok next =>
      if next.tokens.back? == some .streamEnd then (next.tokens, none) else run bound next

/-- A code point that may stand in a YAML text. -/
def isAllowed (p : Point) : Bool :=
  match p with
  | .surrogate _ => false
  | .scalar c =>
    let n := c.toNat
    n == 9 || n == 10 || n == 13 || (0x20 ≤ n && n ≤ 0x7E) || n == 0x85 ||
      (0xA0 ≤ n && n ≤ 0xFFFD) || 0x10000 ≤ n

/-- The tokens of a text up to a failure, and the failure if there is one. -/
def tokens (t : Text) : Array Token × Option Failure :=
  if t.all isAllowed then (Lexer.start t).run (t.length + 2) else (#[], some .malformed)

end SurfaceAudit.Yaml
