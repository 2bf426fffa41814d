import SurfaceAudit.Fault

/-!
# Defects of regular expressions

What is wrong with the text of a regular expression, and where.
-/

namespace SurfaceAudit.Pattern

/-- What is wrong with the text of a regular expression. -/
inductive Reason where
  /-- A backslash stands at the end. -/
  | escapeAtEnd
  /-- There is no such escape. -/
  | badEscape (escape : Text)
  /-- An escape by number lacks digits. -/
  | incompleteEscape (escape : Text)
  /-- An octal escape is above 255. -/
  | octalRange (escape : Text)
  /-- The brace before the name of a character is missing. -/
  | missingBrace
  /-- A name is missing. -/
  | missingName (what : Text)
  /-- A name has no end. -/
  | unterminatedName (terminator : Char)
  /-- There is no character with the name. -/
  | unknownCharacter (name : Text)
  /-- A group refers to itself. -/
  | openGroup
  /-- A look back refers to a group inside it. -/
  | sameLookBack
  /-- There is no group with the number. -/
  | noGroup (n : Nat)
  /-- The name of a group is no identifier. -/
  | badName (name : Text)
  /-- There is no group with the name. -/
  | unknownName (name : Text)
  /-- Two groups have the same name. -/
  | redefined (name : Text) (group earlier : Nat)
  /-- A class has no end. -/
  | unterminatedClass
  /-- The bounds of a range are no range. -/
  | badRange (first last : Text)
  /-- The least number of repetitions is above the most. -/
  | repeatOrder
  /-- There is nothing to repeat. -/
  | nothingToRepeat
  /-- A repetition is repeated. -/
  | multipleRepeat
  /-- The pattern ends inside an extension. -/
  | endOfPattern
  /-- There is no such extension. -/
  | unknownExtension (start : Text)
  /-- A comment has no end. -/
  | unterminatedComment
  /-- A group has no end. -/
  | unterminatedGroup
  /-- No group has the number zero. -/
  | groupZero
  /-- A condition has more than two branches. -/
  | thirdBranch
  /-- Flags for the whole stand elsewhere than at the start. -/
  | flagsNotAtStart
  /-- The flag for the locale does not fit a text. -/
  | localeFlag
  /-- The flags for alphabets exclude each other. -/
  | alphabetFlags
  /-- Something else stands where flags go on or end. -/
  | flagsUnended
  /-- There is no such flag. -/
  | unknownFlag
  /-- A flag for the whole is turned on for a part. -/
  | globalFlagOn
  /-- No flag follows the minus. -/
  | missingFlag
  /-- A flag for alphabets is turned off. -/
  | alphabetFlagOff
  /-- The colon after the flags is missing. -/
  | missingColon
  /-- A flag for the whole is turned off for a part. -/
  | globalFlagOff
  /-- A flag is turned on and off. -/
  | flagOnAndOff
  /-- A bracket closes nothing. -/
  | unbalanced
  /-- A template has no repetitions. -/
  | templateRepeat (greed : Text)
  /-- A look back has no fixed width. -/
  | lookBackWidth
  /-- A look back goes too far. -/
  | lookBackFar
  deriving DecidableEq

/-- The words for a reason. -/
def Reason.message : Reason → Text
  | .escapeAtEnd => "bad escape (end of pattern)"
  | .badEscape e => ("bad escape " : Text) ++ e
  | .incompleteEscape e => ("incomplete escape " : Text) ++ e
  | .octalRange e => ("octal escape value " : Text) ++ e ++ " outside of range 0-0o377"
  | .missingBrace => "missing \x7b"
  | .missingName what => ("missing " : Text) ++ what
  | .unterminatedName c => ("missing " : Text) ++ .scalar c :: ", unterminated name"
  | .unknownCharacter name => ("undefined character name " : Text) ++ name.quoted
  | .openGroup => "cannot refer to an open group"
  | .sameLookBack => "cannot refer to group defined in the same lookbehind subpattern"
  | .noGroup n => ("invalid group reference " : Text) ++ Text.ofNat n
  | .badName name => ("bad character in group name " : Text) ++ name.quoted
  | .unknownName name => ("unknown group name " : Text) ++ name.quoted
  | .redefined name group earlier =>
    ("redefinition of group name " : Text) ++ name.quoted ++ " as group " ++ Text.ofNat group ++
      "; was group " ++ Text.ofNat earlier
  | .unterminatedClass => "unterminated character set"
  | .badRange a b => ("bad character range " : Text) ++ a ++ "-" ++ b
  | .repeatOrder => "min repeat greater than max repeat"
  | .nothingToRepeat => "nothing to repeat"
  | .multipleRepeat => "multiple repeat"
  | .endOfPattern => "unexpected end of pattern"
  | .unknownExtension t => ("unknown extension ?" : Text) ++ t
  | .unterminatedComment => "missing ), unterminated comment"
  | .unterminatedGroup => "missing ), unterminated subpattern"
  | .groupZero => "bad group number"
  | .thirdBranch => "conditional backref with more than two branches"
  | .flagsNotAtStart => "global flags not at the start of the expression"
  | .localeFlag => "bad inline flags: cannot use 'L' flag with a str pattern"
  | .alphabetFlags => "bad inline flags: flags 'a', 'u' and 'L' are incompatible"
  | .flagsUnended => "missing -, : or )"
  | .unknownFlag => "unknown flag"
  | .globalFlagOn => "bad inline flags: cannot turn on global flag"
  | .missingFlag => "missing flag"
  | .alphabetFlagOff => "bad inline flags: cannot turn off flags 'a', 'u' and 'L'"
  | .missingColon => "missing :"
  | .globalFlagOff => "bad inline flags: cannot turn off global flag"
  | .flagOnAndOff => "bad inline flags: flag turned on and off"
  | .unbalanced => "unbalanced parenthesis"
  | .templateRepeat g => ("internal: unsupported template operator " : Text) ++ g
  | .lookBackWidth => "look-behind requires fixed-width pattern"
  | .lookBackFar => "looks too much behind"

/-- A place in the text of an expression: the number of code points before it and, if the text has
several lines, the line and the column. -/
structure Spot where
  /-- The number of code points before the place. -/
  position : Nat
  /-- The line and the column, both counted from 1. -/
  lineColumn : Option (Nat × Nat)
  deriving DecidableEq

/-- The place after some code points of a text. -/
def Spot.at (pattern : Text) (position : Nat) : Spot :=
  if pattern.contains (.scalar '\n') then
    let before := pattern.take position
    let column := (before.reverse.takeWhile (· != Point.scalar '\n')).length + 1
    ⟨position, some (before.count (.scalar '\n') + 1, column)⟩
  else ⟨position, none⟩

/-- A defect, and its place if it has one. -/
structure Defect where
  /-- What is wrong. -/
  reason : Reason
  /-- Where. -/
  spot : Option Spot
  deriving DecidableEq

/-- The words for a defect: the reason and the place. -/
def Defect.message (d : Defect) : Text :=
  d.reason.message ++
    match d.spot with
    | none => []
    | some s =>
      (" at position " : Text) ++ Text.ofNat s.position ++
        match s.lineColumn with
        | none => []
        | some (line, column) =>
          (" (line " : Text) ++ Text.ofNat line ++ ", column " ++ Text.ofNat column ++ ")"

/-- Why a text gives no expression. -/
inductive Failure where
  /-- The text is not well formed. -/
  | defect (d : Defect)
  /-- A number in it goes beyond all bounds, or its flags exclude each other. -/
  | fault (f : Fault)
  deriving DecidableEq

end SurfaceAudit.Pattern
