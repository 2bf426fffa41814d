import SurfaceAudit.Number.Reading
import SurfaceAudit.Pattern.Defect
import SurfaceAudit.Pattern.Names
import SurfaceAudit.Pattern.Syntax

/-!
# The source of a regular expression

The text of an expression is read token by token: a token is a code point, or a backslash with the
code point after it. One token is always in sight before it is taken, so that a backslash at the end
is noticed as soon as the token before it is taken. Groups and flags met so far are remembered.
-/

namespace SurfaceAudit.Pattern

/-- The flags of an expression. -/
inductive Flag where
  /-- Letters of either case are the same. -/
  | ignoreCase
  /-- Classes follow the locale. -/
  | locale
  /-- Anchors look at lines. -/
  | multiLine
  /-- The dot matches line feeds. -/
  | dotAll
  /-- Blanks and comments are passed over. -/
  | verbose
  /-- Named classes hold ASCII only. -/
  | ascii
  /-- There are no repetitions. -/
  | template
  /-- Named classes hold code points of all scripts. -/
  | unicode
  deriving DecidableEq

/-- The letter of a flag. -/
def Flag.ofLetter? (t : Text) : Option Flag :=
  match t with
  | [.scalar 'i'] => some .ignoreCase
  | [.scalar 'L'] => some .locale
  | [.scalar 'm'] => some .multiLine
  | [.scalar 's'] => some .dotAll
  | [.scalar 'x'] => some .verbose
  | [.scalar 'a'] => some .ascii
  | [.scalar 't'] => some .template
  | [.scalar 'u'] => some .unicode
  | _ => none

/-- The flag chooses the alphabet of the named classes. -/
def Flag.isAlphabet (f : Flag) : Bool := f == .ascii || f == .locale || f == .unicode

/-- A set of flags. -/
abbrev Flags := List Flag

/-- The flags of a part: those of the whole with some turned on and some turned off. A flag for an
alphabet takes the place of another. -/
def Flags.combine (flags on off : Flags) : Flags :=
  let kept := if on.any Flag.isAlphabet then flags.filter (!·.isAlphabet) else flags
  (on ++ kept).filter (!off.contains ·)

/-- How letters are compared under flags. -/
def Flags.fold (flags : Flags) : Fold :=
  if !flags.contains .ignoreCase then .exact
  else if flags.contains .ascii then .ascii
  else .full

/-- The widths that a group has. -/
abbrev Width := Nat × Option Nat

/-- The state of the reading. -/
structure Source where
  /-- The whole text. -/
  pattern : Text
  /-- The text after the token in sight. -/
  rest : Text
  /-- The number of code points before that text. -/
  index : Nat
  /-- The token in sight; it is empty at the end. -/
  next : Text
  /-- The flags of the whole. -/
  flags : Flags
  /-- The names of groups and their numbers. -/
  names : List (Text × Nat)
  /-- The widths of the groups by number, where known; number zero is no group. -/
  widths : Array (Option Width)
  /-- Inside a look back: the number of groups before it. -/
  lookBack : Option Nat
  /-- The groups referred to in conditions, and where. -/
  references : List (Nat × Nat)

/-- A step of reading. -/
abbrev Reading := StateT Source (Except Failure)

namespace Source

/-- The number of code points before the token in sight. -/
def position (s : Source) : Nat := s.index - s.next.length

/-- The state with the next token in sight. -/
def advance (s : Source) : Except Failure Source :=
  match s.rest with
  | [] => .ok { s with next := [] }
  | .scalar '\\' :: r =>
    match r with
    | [] =>
      .error (.defect ⟨.escapeAtEnd, some (.at s.pattern (s.pattern.length - 1))⟩)
    | c :: r => .ok { s with rest := r, index := s.index + 2, next := [.scalar '\\', c] }
  | c :: r => .ok { s with rest := r, index := s.index + 1, next := [c] }

/-- The widths of a group, as far as they are known. -/
def width (s : Source) (n : Nat) : Width := ((s.widths[n]?).bind id).getD (0, some 0)

/-- The group is there and closed. -/
def isClosed (s : Source) (n : Nat) : Bool := ((s.widths[n]?).bind id).isSome

end Source

namespace Reading

/-- Fails at a position. -/
def failAt {α : Type} (position : Nat) (reason : Reason) : Reading α := do
  throw (.defect ⟨reason, some (.at (← get).pattern position)⟩)

/-- Fails some code points before the token in sight. -/
def fail {α : Type} (reason : Reason) (offset : Nat) : Reading α := do
  failAt ((← get).position - offset) reason

/-- The token in sight. -/
def peek : Reading Text := return (← get).next

/-- The position of the token in sight. -/
def position : Reading Nat := return (← get).position

/-- Takes the token in sight. -/
def take : Reading Text := do
  let s ← get
  set (← s.advance)
  return s.next

/-- Takes the token in sight if it is a given code point. -/
def accept (c : Char) : Reading Bool := do
  if (← peek) == [.scalar c] then
    discard take
    return true
  else return false

/-- Takes code points of a class, up to a number. -/
def takeWhile (f : Point → Bool) : Nat → Text → Reading Text
  | 0, done => return done.reverse
  | n + 1, done => do
    match ← peek with
    | [c] => if f c then do discard take; takeWhile f n (c :: done) else return done.reverse
    | _ => return done.reverse

/-- Takes the tokens up to a terminator, which is taken too. The bound is the number of code points
of the pattern. -/
def takeUntil (terminator : Char) (what : Text) : Nat → Text → Reading Text
  | 0, _ => fail (.missingName what) 0
  | bound + 1, done => do
    let c ← take
    if c.isEmpty then
      if done.isEmpty then fail (.missingName what) 0
      else fail (.unterminatedName terminator) done.length
    else if c == [.scalar terminator] then
      if done.isEmpty then fail (.missingName what) 1 else return done
    else takeUntil terminator what bound (done ++ c)

/-- Takes a name up to a terminator. -/
def name (terminator : Char) (what : Text) : Reading Text := do
  takeUntil terminator what ((← get).pattern.length + 1) []

/-- Takes the name of a group, which is an identifier. -/
def groupName (terminator : Char) : Reading Text := do
  let t ← name terminator "group name"
  if t.isIdentifier then return t else fail (.badName t) (t.length + 1)

/-- An octal digit. -/
def isOctal (p : Point) : Bool := p.between '0' '7'

/-- The value of digits in a base. -/
def valueOf (base : Nat) (t : Text) : Nat :=
  t.foldl (fun n p => n * base + p.hexDigit?.getD 0) 0

/-- Reads the digits of an escape by number in base 16. -/
def hexEscape (token : Text) (count : Nat) : Reading Nat := do
  let ds ← takeWhile (·.hexDigit?.isSome) count []
  let whole := token ++ ds
  if ds.length != count then fail (.incompleteEscape whole) whole.length
  let n := valueOf 16 ds
  if 0x110000 ≤ n then
    if 0x80000000 ≤ n then throw (.fault .codePointSize)
    else fail (.badEscape whole) whole.length
  else return n

/-- Reads the name of a character in braces. -/
def namedEscape : Reading Nat := do
  if !(← accept '{') then fail .missingBrace 0
  let t ← name '}' "character name"
  match characterNamed? t with
  | some n => return n
  | none => fail (.unknownCharacter t) (t.length + 4)

/-- The controls that are spelled by a letter. -/
def control? (c : Char) : Option Nat :=
  match c with
  | 'a' => some 7
  | 'f' => some 12
  | 'n' => some 10
  | 'r' => some 13
  | 't' => some 9
  | 'v' => some 11
  | '\\' => some 92
  | _ => none

/-- The named class that is spelled by a letter, and whether it is negated. -/
def category? (c : Char) : Option (Category × Bool) :=
  match c with
  | 'd' => some (.digit, false)
  | 'D' => some (.digit, true)
  | 's' => some (.space, false)
  | 'S' => some (.space, true)
  | 'w' => some (.word, false)
  | 'W' => some (.word, true)
  | _ => none

/-- Reads on after an escape that spells a code point in the same way inside and outside of a class,
if it is one. -/
def codeEscape? (token : Text) (c : Char) : Reading (Option Nat) := do
  match c with
  | 'x' => return some (← hexEscape token 2)
  | 'u' => return some (← hexEscape token 4)
  | 'U' => return some (← hexEscape token 8)
  | 'N' => return some (← namedEscape)
  | _ => return none

/-- The code point of an escape that is left: any but an ASCII letter or digit spells itself. -/
def selfEscape (token : Text) (p : Point) : Reading Nat := do
  if p.isAsciiLetter || p.isAsciiDigit then fail (.badEscape token) token.length
  else return p.val

/-- The named class under flags. -/
def categoryMember (flags : Flags) (c : Category) (negated : Bool) : Member :=
  .category c negated (flags.contains .ascii)

/-- Reads an escape inside a class. -/
def classEscape (flags : Flags) (token : Text) : Reading Member := do
  match token with
  | [_, .scalar c] =>
    if c == 'b' then return .point 8
    else if let some n := control? c then return .point n
    else if let some (k, negated) := category? c then return categoryMember flags k negated
    else if isOctal (.scalar c) then
      let more ← takeWhile isOctal 2 []
      let n := valueOf 8 (.scalar c :: more)
      let whole := token ++ more
      if 0o377 < n then fail (.octalRange whole) whole.length else return .point n
    else match ← codeEscape? token c with
      | some n => return .point n
      | none => return .point (← selfEscape token (.scalar c))
  | [_, p] => return .point p.val
  | _ => fail (.badEscape token) token.length

/-- What an escape or a token stands for, for a quantifier after it. -/
inductive ItemKind where
  /-- A condition on the place, which cannot be repeated. -/
  | anchor
  /-- A repetition, which cannot be repeated. -/
  | repetition
  /-- Anything else. -/
  | other
  deriving DecidableEq

/-- A part of a sequence. -/
structure Item where
  /-- The expression. -/
  expr : Expr
  /-- What it is. -/
  kind : ItemKind

/-- The item of a class. -/
def unit (c : Class) : Item := ⟨.unit c, .other⟩

/-- The item of a code point under flags. -/
def literal (flags : Flags) (n : Nat) : Item := unit ⟨false, flags.fold, [.point n]⟩

/-- Checks a reference to a group from inside a look back. -/
def checkLookBack (n : Nat) : Reading Unit := do
  let s ← get
  match s.lookBack with
  | none => return
  | some before =>
    if !s.isClosed n then fail .openGroup 0
    else if before ≤ n then fail .sameLookBack 0

/-- The item that refers to a closed group; `offset` is where the reference begins. -/
def reference (flags : Flags) (n offset : Nat) : Reading Item := do
  if !(← get).isClosed n then fail .openGroup offset
  checkLookBack n
  return ⟨.back n flags.fold, .other⟩

/-- Reads on after a backslash and a digit that is not zero: an octal escape of three digits, or
else a reference to a group. -/
def digitEscape (flags : Flags) (token : Text) (c : Point) : Reading Item := do
  let more ← takeWhile Point.isAsciiDigit 1 []
  -- Three octal digits spell a code point; fewer are the number of a group.
  let last ← if isOctal c && !more.isEmpty && more.all isOctal then takeWhile isOctal 1 []
    else pure []
  let whole := token ++ more ++ last
  let n := valueOf (if last.isEmpty then 10 else 8) (c :: more ++ last)
  if !last.isEmpty then
    if 0o377 < n then fail (.octalRange whole) whole.length else return literal flags n
  else if n < (← get).widths.size then reference flags n whole.length
  else fail (.noGroup n) (whole.length - 1)

/-- Reads an escape outside of classes. -/
def escape (flags : Flags) (token : Text) : Reading Item := do
  let ascii := flags.contains .ascii
  let anchor (a : Anchor) : Reading Item := return ⟨.anchor a, .anchor⟩
  match token with
  | [_, .scalar c] =>
    match c with
    | 'A' => anchor .textStart
    | 'Z' => anchor .textEnd
    | 'b' => anchor (.edge ascii)
    | 'B' => anchor (.inner ascii)
    | '0' =>
      let more ← takeWhile isOctal 2 []
      return literal flags (valueOf 8 more)
    | _ =>
      if let some n := control? c then return literal flags n
      else if let some (k, negated) := category? c then
        return unit ⟨false, flags.fold, [categoryMember flags k negated]⟩
      else if c.isDigit then digitEscape flags token (.scalar c)
      else match ← codeEscape? token c with
        | some n => return literal flags n
        | none => return literal flags (← selfEscape token (.scalar c))
  | [_, p] => return literal flags p.val
  | _ => fail (.badEscape token) token.length

/-- Reads a member of a class from its first token. -/
def member (flags : Flags) (token : Text) : Reading Member := do
  match token with
  | [p] => return .point p.val
  | _ => classEscape flags token

/-- Reads the members of a class up to its end; those read stand in reverse. -/
def members (flags : Flags) (start : Nat) : Nat → List Member → Reading (List Member)
  | 0, _ => failAt start .unterminatedClass
  | bound + 1, done => do
    let token ← take
    if token.isEmpty then failAt start .unterminatedClass
    else if token == [.scalar ']'] && !done.isEmpty then return done.reverse
    else
      let first ← member flags token
      if ← accept '-' then
        let last ← take
        -- A hyphen before the closing bracket stands for itself.
        if last.isEmpty then failAt start .unterminatedClass
        else if last == [.scalar ']'] then return (.point 45 :: first :: done).reverse
        else
          let bad : Reading (List Member) :=
            fail (.badRange token last) (token.length + 1 + last.length)
          match first, ← member flags last with
          | .point lo, .point hi =>
            if hi < lo then bad else members flags start bound (.range lo hi :: done)
          | _, _ => bad
      else members flags start bound (first :: done)

/-- Reads a class after its bracket. -/
def charClass (flags : Flags) : Reading Item := do
  let start := (← position) - 1
  let negated ← accept '^'
  let ms ← members flags start ((← get).pattern.length + 1) []
  return unit ⟨negated, flags.fold, ms⟩

/-- A number of repetitions from its digits, if there are any. -/
def repetitions? (digits : Text) : Reading (Option Nat) := do
  if digits.isEmpty then return none
  else
    let n := valueOf 10 digits
    if 4294967295 ≤ n then throw (.fault .repetition) else return some n

/-- Reads the bounds of a repetition from its first token; none, if the token is a brace that begins
no bounds. -/
def bounds? (token : Text) : Reading (Option (Nat × Option Nat)) := do
  match token with
  | [.scalar '?'] => return some (0, some 1)
  | [.scalar '*'] => return some (0, none)
  | [.scalar '+'] => return some (1, none)
  | _ =>
    let start ← get
    if (← peek) == [.scalar '}'] then return none
    else
      let count := start.pattern.length
      let low ← takeWhile Point.isAsciiDigit count []
      let high ← if ← accept ',' then takeWhile Point.isAsciiDigit count [] else pure low
      if ← accept '}' then
        let least := (← repetitions? low).getD 0
        let most ← repetitions? high
        match most with
        | some m => if m < least then failAt start.position .repeatOrder
        | none => pure ()
        return some (least, most)
      else
        -- The brace begins no bounds after all, so the tokens after it are read again.
        set start
        return none

/-- Reads how a repetition chooses its length. -/
def greed : Reading Greed := do
  if ← accept '?' then return .lazy
  else if ← accept '+' then return .possessive
  else return .greedy

/-- Reads a repetition of the last item from its first token. The items stand in reverse. -/
def quantifier (flags : Flags) (token : Text) (done : List Item) : Reading (List Item) := do
  let start := (← position) - token.length
  match ← bounds? token with
  | none => return literal flags 123 :: done
  | some (least, most) =>
    match done with
    | [] => failAt start .nothingToRepeat
    | item :: r =>
      match item.kind with
      | .anchor => failAt start .nothingToRepeat
      | .repetition => failAt start .multipleRepeat
      | .other =>
        return ⟨.repeated (← greed) least most item.expr, .repetition⟩ :: r

end Reading

end SurfaceAudit.Pattern
