import SurfaceAudit.Text.Case

/-!
# Regular expressions

The expressions that commands are searched with. All flags are resolved: a class knows whether it
ignores case, an anchor whether it looks at lines, so that an expression has one meaning.
-/

namespace SurfaceAudit.Pattern

/-- How letters of different case are compared. -/
inductive Fold where
  /-- They differ. -/
  | exact
  /-- ASCII letters are the same in either case. -/
  | ascii
  /-- All letters are the same in either case. -/
  | full
  deriving DecidableEq

/-- Classes of code points that have a name. -/
inductive Category where
  /-- Decimal digits. -/
  | digit
  /-- White space. -/
  | space
  /-- Letters, numbers and the underscore. -/
  | word
  deriving DecidableEq

/-- A part of a class. -/
inductive Member where
  /-- A code point. -/
  | point (n : Nat)
  /-- The code points from one to another. -/
  | range (first last : Nat)
  /-- A named class or what is not in it, in Unicode or in ASCII. -/
  | category (c : Category) (negated ascii : Bool)
  deriving DecidableEq

/-- A class of code points: what belongs to one of the members, or all that does not. -/
structure Class where
  /-- The class holds what belongs to no member. -/
  negated : Bool
  /-- How letters are compared with the members. -/
  fold : Fold
  /-- The members. -/
  members : List Member
  deriving DecidableEq

/-- A condition on a place in a text. -/
inductive Anchor where
  /-- The start of the text. -/
  | textStart
  /-- The end of the text. -/
  | textEnd
  /-- The end of the text, or before a line feed at the end of the text. -/
  | finalEnd
  /-- The start of the text or of a line. -/
  | lineStart
  /-- The end of the text or of a line. -/
  | lineEnd
  /-- Between a word code point and something else. -/
  | edge (ascii : Bool)
  /-- Between two word code points or two others, in a text that is not empty. -/
  | inner (ascii : Bool)
  deriving DecidableEq

/-- How often a repetition is tried first. -/
inductive Greed where
  /-- As often as possible, then less often. -/
  | greedy
  /-- As rarely as possible, then more often. -/
  | lazy
  /-- As often as possible, and never less often. -/
  | possessive
  deriving DecidableEq

/-- A regular expression. -/
inductive Expr where
  /-- Nothing. -/
  | empty
  /-- A code point of a class. -/
  | unit (c : Class)
  /-- A condition on the place. -/
  | anchor (a : Anchor)
  /-- One expression and then another. -/
  | seq (first second : Expr)
  /-- One expression or else another. -/
  | alt (first second : Expr)
  /-- An expression whose text is kept under a number. -/
  | group (number : Nat) (body : Expr)
  /-- An expression that is matched in its first way only. -/
  | atomic (body : Expr)
  /-- An expression several times in a row. -/
  | repeated (greed : Greed) (least : Nat) (most : Option Nat) (body : Expr)
  /-- The condition that an expression matches, or does not match, from the place on. -/
  | ahead (positive : Bool) (body : Expr)
  /-- The condition that an expression matches, or does not match, some code points back. The width
  of the expression lies between two numbers. -/
  | behind (positive : Bool) (least : Nat) (most : Option Nat) (body : Expr)
  /-- The text kept under a number once more. -/
  | back (number : Nat) (fold : Fold)
  /-- One expression if a text is kept under a number, and else another. -/
  | ifGroup (number : Nat) (yes no : Expr)
  deriving Inhabited

namespace Fold

/-- The ASCII small letter of a code point. -/
def asciiSmall (p : Point) : Point :=
  if p.between 'A' 'Z' then (Point.ofNat? (p.val + 32)).getD p else p

/-- The small letter of a code point. -/
def small : Fold → Point → Point
  | .exact, p => p
  | .ascii, p => asciiSmall p
  | .full, p => p.small

/-- The numbers of the code points that are the same letter. -/
def same : Fold → Point → List Nat
  | .exact, p => [p.val]
  | .ascii, p =>
    if p.between 'a' 'z' then [p.val, p.val - 32]
    else if p.between 'A' 'Z' then [p.val, p.val + 32]
    else [p.val]
  | .full, p => Point.withCaseKey p.caseKey

end Fold

/-- The code point belongs to a named class. -/
def Category.holds (c : Category) (ascii : Bool) (p : Point) : Bool :=
  match c with
  | .digit => if ascii then p.isAsciiDigit else p.isDigit
  | .space => if ascii then p == ' ' || p.between '\t' '\r' else p.isBlank
  | .word =>
    if ascii then p.isAsciiLetter || p.isAsciiDigit || p == '_' else p.isWord

/-- The code point belongs to a member. -/
def Member.holds (fold : Fold) (p : Point) : Member → Bool
  | .point n => p.val == n || (fold != .exact && (fold.same p).contains n)
  | .range lo hi =>
    (lo ≤ p.val && p.val ≤ hi) ||
      (fold != .exact && (fold.same p).any fun n => lo ≤ n && n ≤ hi)
  | .category c negated ascii => c.holds ascii (fold.small p) != negated

/-- The code point belongs to a class. -/
def Class.holds (c : Class) (p : Point) : Bool := c.members.any (·.holds c.fold p) != c.negated

/-- The class of one code point. -/
def Class.of (c : Char) : Class := ⟨false, .exact, [.point c.toNat]⟩

/-- The class of a named class. -/
def Class.ofCategory (c : Category) : Class := ⟨false, .exact, [.category c false false]⟩

namespace Expr

/-- A word, code point by code point. -/
def word (s : String) : Expr := s.toList.foldr (fun c e => seq (unit (.of c)) e) empty

/-- Expressions one after the other. -/
def all (es : List Expr) : Expr := es.foldr seq empty

/-- The sum of two bounds. -/
def addBound : Option Nat → Option Nat → Option Nat
  | some m, some n => some (m + n)
  | _, _ => none

/-- The least and the greatest number of code points that the expression matches; a text kept under
a number has the width that is given for it. -/
def width (kept : Nat → Nat × Option Nat) : Expr → Nat × Option Nat
  | .empty => (0, some 0)
  | .unit _ => (1, some 1)
  | .anchor _ => (0, some 0)
  | .seq a b =>
    let (l, h) := a.width kept
    let (m, i) := b.width kept
    (l + m, addBound h i)
  | .alt a b =>
    let (l, h) := a.width kept
    let (m, i) := b.width kept
    (min l m, match h, i with
      | some h, some i => some (max h i)
      | _, _ => none)
  | .group _ e => e.width kept
  | .atomic e => e.width kept
  | .repeated _ least most e =>
    let (l, h) := e.width kept
    (l * least, match h, most with
      | some 0, _ => some 0
      | some h, some n => some (h * n)
      | none, some 0 => some 0
      | _, _ => none)
  | .ahead .. => (0, some 0)
  | .behind .. => (0, some 0)
  | .back n _ => kept n
  | .ifGroup _ a b =>
    let (l, h) := a.width kept
    let (m, i) := b.width kept
    (min l m, match h, i with
      | some h, some i => some (max h i)
      | _, _ => none)

end Expr

end SurfaceAudit.Pattern
