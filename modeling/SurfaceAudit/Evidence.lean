import SurfaceAudit.Impact

/-!
# Evidence

A finding that bears on where a plugin can run: where it was found, what it is, and its impact. The
verdicts of a plugin are the most restrictive ones that its evidence has.
-/

namespace SurfaceAudit

/-- The kind of place that evidence comes from. -/
inductive Source where
  /-- The surfaces that the author lists. -/
  | declaration
  /-- The tools that a document allows. -/
  | frontmatter
  /-- A fenced block of commands in a document. -/
  | codeBlock
  /-- A script file. -/
  | script
  /-- An import in a script file. -/
  | scriptImport
  /-- The command of a hook. -/
  | hook
  /-- The command that starts a server. -/
  | mcpServer
  deriving DecidableEq, Inhabited

namespace Source

/-- All sources. -/
def all : List Source :=
  [.declaration, .frontmatter, .codeBlock, .script, .scriptImport, .hook, .mcpServer]

/-- The name of a source. -/
def name : Source → Text
  | .declaration => "declaration"
  | .frontmatter => "frontmatter"
  | .codeBlock => "code-block"
  | .script => "script"
  | .scriptImport => "script-import"
  | .hook => "hook"
  | .mcpServer => "mcp-server"

/-- The source with a name. -/
def ofText (t : Text) : Attempt Source :=
  match all.find? (·.name == t) with
  | some s => .ok s
  | none => .error (.unknownSource t)

end Source

/-- A finding. -/
structure Evidence where
  /-- Where it comes from. -/
  source : Source
  /-- The file it was found in. -/
  file : Text
  /-- The line it was found on, if it has one. -/
  line : Option Int
  /-- What it is, in short. -/
  signal : Text
  /-- What it is, in full. -/
  detail : Text
  /-- What it means for the surfaces. -/
  impact : Impact
  deriving DecidableEq, Inhabited

namespace Evidence

/-- The evidence restricts nothing. -/
def isInformational (e : Evidence) : Bool := e.impact.isNone

/-- Evidence from parts that are yet to be checked: first the source, then the impact. -/
def ofParts (source file signal detail : Text) (impact : Value) (line : Option Int) :
    Attempt Evidence := do
  let source ← Source.ofText source
  let impact ← Impact.ofValue impact
  return ⟨source, file, line, signal, detail, impact⟩

/-- The evidence as a mapping; a missing line has no entry. -/
def toValue (e : Evidence) : Value :=
  .map ([(.text "source", .text e.source.name), (.text "file", .text e.file)] ++
    (e.line.map fun n => (Value.text "line", Value.int n)).toList ++
    [(.text "signal", .text e.signal), (.text "detail", .text e.detail),
      (.text "impact", e.impact.toValue)])

/-- The most restrictive verdicts of some evidence. -/
def verdicts (es : List Evidence) : Impact := Impact.worst (es.map (·.impact))

end Evidence

end SurfaceAudit
