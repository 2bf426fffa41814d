import SurfaceAudit.Fault

/-!
# Defects of rule files

What can be wrong with a file of rules or an entry in it, by cause, and the words for it. Texts that
come from the file are kept as they are shown.
-/

namespace SurfaceAudit

/-- What is wrong with a directory or file of rules, or with an entry in one. -/
inductive RuleDefect where
  /-- There is no directory of rules. -/
  | noDirectory (path : Text)
  /-- A file is not YAML. -/
  | notYaml (path : Text)
  /-- A file cannot be opened. -/
  | unreadable (path : Text) (defect : FileDefect) (place : Text)
  /-- A file holds nothing. -/
  | empty (path : Text)
  /-- A file holds something else than a mapping. -/
  | notMapping (path : Text)
  /-- A rule for commands is no mapping. -/
  | commandShape (path : Text)
  /-- A rule for commands lacks a field. -/
  | fieldMissing (field path : Text)
  /-- The priority of a rule is no integer. -/
  | priority (signal : Text)
  /-- A rule for commands names an impact that there is not. -/
  | commandTemplate (shown signal : Text)
  /-- The pattern of a rule is too long. -/
  | patternLength (signal : Text)
  /-- A rule names a flag that there is not. -/
  | flag (shown signal : Text)
  /-- The pattern of a rule is not well formed. -/
  | pattern (signal reason : Text)
  /-- A section is no mapping. -/
  | sectionShape (table path : Text)
  /-- An entry of a table is no mapping. -/
  | entryShape (name table : Text)
  /-- An entry of a table names an impact that there is not. -/
  | entryTemplate (shown name table : Text)
  /-- An entry of a table lacks its signal. -/
  | signalMissing (field name table : Text)
  /-- A table has an entry already. -/
  | duplicate (name table : Text)
  /-- Two rules have the same priority. -/
  | samePriority (shown first second : Text)
  deriving DecidableEq

namespace RuleDefect

/-- The number of code points that a pattern may have. -/
def patternLimit : Nat := 1000

/-- The words for a defect. -/
def message : RuleDefect → Text
  | .noDirectory path => ("Rules directory not found: " : Text) ++ path
  | .notYaml path => ("YAML parsing error in " : Text) ++ path ++ ": malformed document"
  | .unreadable path d place =>
    ("Error loading " : Text) ++ path ++ ": " ++ d.message ++ ": " ++ place.quoted
  | .empty path => ("Empty rule file: " : Text) ++ path
  | .notMapping path => ("Rule file is not a mapping: " : Text) ++ path
  | .commandShape path => ("Command rule is not a mapping in " : Text) ++ path
  | .fieldMissing field path =>
    ("Missing required field '" : Text) ++ field ++ "' in command rule from " ++ path
  | .priority signal => ("Invalid priority in command rule '" : Text) ++ signal ++ "'"
  | .commandTemplate shown signal =>
    ("Unknown impact template '" : Text) ++ shown ++ "' in command rule '" ++ signal ++ "'"
  | .patternLength signal =>
    ("Pattern too long in command rule '" : Text) ++ signal ++ "' (max " ++
      Text.ofNat patternLimit ++ ")"
  | .flag shown signal =>
    ("Unknown flag '" : Text) ++ shown ++ "' in command rule '" ++ signal ++ "'"
  | .pattern signal reason =>
    ("Invalid regex in command rule '" : Text) ++ signal ++ "': " ++ reason
  | .sectionShape table path =>
    ("Section '" : Text) ++ table ++ "' is not a mapping in " ++ path
  | .entryShape name table =>
    ("Entry '" : Text) ++ name ++ "' in '" ++ table ++ "' is not a mapping"
  | .entryTemplate shown name table =>
    ("Unknown impact template '" : Text) ++ shown ++ "' for '" ++ name ++ "' in '" ++ table ++ "'"
  | .signalMissing field name table =>
    ("Missing '" : Text) ++ field ++ "' for '" ++ name ++ "' in '" ++ table ++ "'"
  | .duplicate name table => ("Duplicate entry '" : Text) ++ name ++ "' in '" ++ table ++ "'"
  | .samePriority shown first second =>
    ("Duplicate priority " : Text) ++ shown ++ " for command rules '" ++ first ++ "' and '" ++
      second ++ "'"

end RuleDefect

end SurfaceAudit
