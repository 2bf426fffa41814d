import SurfaceAudit.Pattern.Syntax

/-!
# Matching

Matching tries the ways of an expression in a fixed order and takes the first one with which the
rest can be matched too. What comes after an expression is given as a function on states; an
expression yields the end state that the function yields for the first way that leads to one.
-/

namespace SurfaceAudit.Pattern

/-- A text kept under a number: the rest of the text at its start and at its end. -/
structure Kept where
  /-- The number. -/
  number : Nat
  /-- The rest of the text at the start. -/
  start : Text
  /-- The rest of the text at the end. -/
  stop : Text

/-- A place in a text, and the texts kept so far. -/
structure State where
  /-- What stands before the place, nearest first. -/
  before : Text
  /-- What stands after the place. -/
  after : Text
  /-- The number of code points before the place. -/
  index : Nat
  /-- The texts kept, the latest first. -/
  kept : List Kept

namespace State

/-- The state at the start of a text. -/
def start (t : Text) : State := ⟨[], t, 0, []⟩

/-- The state after the next code point. -/
def forward (s : State) : State :=
  match s.after with
  | [] => s
  | p :: r => { s with before := p :: s.before, after := r, index := s.index + 1 }

/-- The state before the last code point. -/
def backward (s : State) : State :=
  match s.before with
  | [] => s
  | p :: r => { s with before := r, after := p :: s.after, index := s.index - 1 }

/-- The state some code points back, if there are so many. -/
def back? (s : State) : Nat → Option State
  | 0 => some s
  | n + 1 =>
    match s.before with
    | [] => none
    | _ => s.backward.back? n

/-- The state after a given text, up to case, if it comes next. -/
def past? (fold : Fold) : Text → State → Option State
  | [], s => some s
  | p :: t, s =>
    match s.after with
    | [] => none
    | q :: _ => if (fold.small p).val == (fold.small q).val then past? fold t s.forward else none

/-- The text kept under a number. -/
def keptText? (s : State) (n : Nat) : Option Text :=
  (s.kept.find? (·.number == n)).map fun k => k.start.take (k.start.length - k.stop.length)

end State

/-- The code point is a word code point; the end of the text is none. -/
def isWordPart (ascii : Bool) (p : Option Point) : Bool :=
  (p.map (Category.word.holds ascii)).getD false

/-- The condition holds at the place. -/
def Anchor.holds (a : Anchor) (s : State) : Bool :=
  let between (ascii : Bool) : Bool :=
    isWordPart ascii s.before.head? != isWordPart ascii s.after.head?
  match a with
  | .textStart => s.before.isEmpty
  | .textEnd => s.after.isEmpty
  | .finalEnd => s.after.isEmpty || s.after == [.scalar '\n']
  | .lineStart => s.before.isEmpty || s.before.head? == some (.scalar '\n')
  | .lineEnd => s.after.isEmpty || s.after.head? == some (.scalar '\n')
  | .edge ascii => between ascii
  | .inner ascii => !between ascii && !(s.before.isEmpty && s.after.isEmpty)

/-- What comes after an expression. -/
abbrev Rest := State → Option State

/-- The way to match an expression. -/
abbrev Matcher := Rest → State → Option State

/-- A number of repetitions is still below the most. -/
def below (n : Nat) : Option Nat → Bool
  | none => true
  | some m => n < m

namespace Matcher

/-- A number of times one after the other. -/
def times (m : Matcher) : Nat → Matcher
  | 0, k => k
  | n + 1, k => m (times m n k)

/-- Goes on as often as possible, then less often. An iteration that ends where the one before it
began is the last. The bound is more than the number of code points left. -/
def more (m : Matcher) (most : Option Nat) (k : Rest) : Nat → Nat → Option Nat → Rest
  | 0, _, _, s => k s
  | bound + 1, count, last, s =>
    -- An iteration that has not moved would go on for ever.
    if below count most && last != some s.index then
      match m (more m most k bound (count + 1) (some s.index)) s with
      | some e => some e
      | none => k s
    else k s

/-- Goes on as rarely as possible, then more often. -/
def fewer (m : Matcher) (most : Option Nat) (k : Rest) : Nat → Nat → Option Nat → Rest
  | 0, _, _, s => k s
  | bound + 1, count, last, s =>
    match k s with
    | some e => some e
    | none =>
      if below count most && last != some s.index then
        m (fewer m most k bound (count + 1) (some s.index)) s
      else none

/-- Goes on as often as possible, each time in the first way, from a state on. -/
def furthest (m : Matcher) (most : Option Nat) : Nat → Nat → Option Nat → State → State
  | 0, _, _, s => s
  | bound + 1, count, last, s =>
    if below count most && last != some s.index then
      match m some s with
      | some e => furthest m most bound (count + 1) (some s.index) e
      | none => s
    else s

/-- A number of times, each time in the first way. -/
def timesFirst (m : Matcher) : Nat → State → Option State
  | 0, s => some s
  | n + 1, s => (m some s).bind (timesFirst m n)

/-- A repetition. -/
def repeated (m : Matcher) (greed : Greed) (least : Nat) (most : Option Nat) : Matcher :=
  fun k s =>
    match greed with
    | .greedy => times m least (fun t => more m most k (t.after.length + 2) least none t) s
    | .lazy => times m least (fun t => fewer m most k (t.after.length + 2) least none t) s
    | .possessive => (timesFirst m least s).bind fun t =>
        k (furthest m most (t.after.length + 2) least none t)

end Matcher

namespace Class

/-- The number of code points of the class that come next, up to a limit. -/
def countNext (c : Class) (most : Option Nat) (t : Text) : Nat :=
  match most with
  | none => (t.takeWhile c.holds).length
  | some m => ((t.take m).takeWhile c.holds).length

/-- The state some code points on. -/
def skip : Nat → State → State
  | 0, s => s
  | n + 1, s => skip n s.forward

/-- Tries the state, and then those before it one after the other. -/
def tryBackward (k : Rest) : Nat → Rest
  | 0, s => k s
  | n + 1, s =>
    match k s with
    | some e => some e
    | none => tryBackward k n s.backward

/-- Tries the state, and then those after it one after the other. -/
def tryForward (k : Rest) : Nat → Rest
  | 0, s => k s
  | n + 1, s =>
    match k s with
    | some e => some e
    | none => tryForward k n s.forward

/-- A repetition of a class, for which no way has to be remembered but the number of code points. -/
def repeated (c : Class) (greed : Greed) (least : Nat) (most : Option Nat) : Matcher :=
  fun k s =>
    let n := c.countNext most s.after
    if n < least then none
    else match greed with
      | .greedy => tryBackward k (n - least) (skip n s)
      | .lazy => tryForward k (n - least) (skip least s)
      | .possessive => k (skip n s)

end Class

namespace Expr

/-- Matches an expression. -/
def run : Expr → Matcher
  | .empty => fun k s => k s
  | .unit c => fun k s =>
    match s.after with
    | [] => none
    | p :: _ => if c.holds p then k s.forward else none
  | .anchor a => fun k s => if a.holds s then k s else none
  | .seq a b => fun k => run a (run b k)
  | .alt a b => fun k s =>
    match run a k s with
    | some e => some e
    | none => run b k s
  | .group n e => fun k s =>
    run e (fun t => k { t with kept := ⟨n, s.after, t.after⟩ :: t.kept }) s
  | .atomic e => fun k s => (run e some s).bind k
  | .repeated g least most (.unit c) => c.repeated g least most
  | .repeated g least most e => Matcher.repeated (run e) g least most
  -- What a look ahead keeps stays kept, though the place does not move.
  | .ahead true e => fun k s => (run e some s).bind fun t => k { s with kept := t.kept }
  | .ahead false e => fun k s => if (run e some s).isSome then none else k s
  -- What is looked back at has a fixed length, so there is one place to begin.
  | .behind true least _ e => fun k s =>
    (s.back? least).bind fun b => (run e some b).bind fun t => k { s with kept := t.kept }
  | .behind false least _ e => fun k s =>
    match s.back? least with
    | none => k s
    | some b => if (run e some b).isSome then none else k s
  | .back n fold => fun k s => (s.keptText? n).bind fun t => (s.past? fold t).bind k
  | .ifGroup n a b => fun k s => if (s.keptText? n).isSome then run a k s else run b k s

/-- The end of the first match that begins at a state or later. -/
def searchFrom (e : Expr) : Text → State → Option State
  | [], s => e.run some s
  | _ :: r, s =>
    match e.run some s with
    | some t => some t
    | none => searchFrom e r s.forward

/-- The expression matches somewhere in a text. -/
def isFoundIn (e : Expr) (t : Text) : Bool := (searchFrom e t (.start t)).isSome

end Expr

end SurfaceAudit.Pattern
