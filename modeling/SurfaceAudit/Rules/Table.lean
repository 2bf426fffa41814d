import SurfaceAudit.Impact
import SurfaceAudit.Pattern.Match

/-!
# Rule tables

What the scanners know: ordered rules for commands, and tables for programs, script files, imports
and tools. Commands are classified by the first rule whose pattern is found in them, programs by
their exact name.
-/

namespace SurfaceAudit

/-- A rule for commands. -/
structure CommandRule where
  /-- The place in the order of rules. -/
  priority : Int
  /-- What a command is called that the rule is about. -/
  signal : Text
  /-- The text of the pattern. -/
  pattern : Text
  /-- The pattern. -/
  expr : Pattern.Expr
  /-- The impact. -/
  template : Template

/-- The rule is about a command. -/
def CommandRule.appliesTo (r : CommandRule) (command : Text) : Bool := r.expr.isFoundIn command

/-- An entry of a table. -/
structure SignalRule where
  /-- What is found, in short. -/
  signal : Text
  /-- The impact. -/
  template : Template
  deriving DecidableEq, Inhabited

/-- A table by name; the names are distinct and keep their order. -/
abbrev SignalTable := List (Text × SignalRule)

namespace SignalTable

/-- The entry under a name. -/
def get? (t : SignalTable) (name : Text) : Option SignalRule :=
  (t.find? (·.1 == name)).map (·.2)

/-- The table with an entry set. A new name comes last; a name that is there keeps its place. -/
def put (t : SignalTable) (name : Text) (rule : SignalRule) : SignalTable :=
  if t.any (·.1 == name) then t.map fun e => if e.1 == name then (name, rule) else e
  else t ++ [(name, rule)]

end SignalTable

/-- All rule tables. -/
structure RuleTables where
  /-- The rules for commands, in the order in which they are tried. -/
  commands : List CommandRule
  /-- The programs that start servers. -/
  binaries : SignalTable
  /-- The script files by extension. -/
  scripts : SignalTable
  /-- The imports by language. -/
  imports : SignalTable
  /-- The tools that need the local environment. -/
  tools : SignalTable

/-- Tables without rules. -/
def RuleTables.empty : RuleTables := ⟨[], [], [], [], []⟩

/-- What a command or program is found to be. -/
structure Classification where
  /-- What it is called. -/
  signal : Text
  /-- What it means for the surfaces. -/
  impact : Impact
  deriving DecidableEq, Inhabited

namespace RuleTables

/-- Classifies a command by the first rule that is about it. The empty command has no class. -/
def classifyCommand (rules : RuleTables) (command : Text) : Option Classification :=
  if command.isEmpty then none
  else (rules.commands.find? (·.appliesTo command)).map fun r => ⟨r.signal, r.template.impact⟩

/-- Classifies a program by its name. -/
def classifyBinary (rules : RuleTables) (name : Text) : Option Classification :=
  (rules.binaries.get? name).map fun r => ⟨r.signal, r.template.impact⟩

end RuleTables

end SurfaceAudit
