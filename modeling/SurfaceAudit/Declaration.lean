import SurfaceAudit.Evidence
import SurfaceAudit.Rules.Table
import SurfaceAudit.Text.Lines

/-!
# Declarations

What authors declare: the tools that a document allows, and the surfaces that a document or a plugin
is for. A restricted tool is evidence, and so is a list of surfaces that leaves some out.
-/

namespace SurfaceAudit.Declaration

/-- A code point of the name of a tool. -/
def isNamePart (p : Point) : Bool := p.isWord || p == '-'

/-- The text after arguments in brackets, if it begins with them. -/
def afterArguments (t : Text) : Text :=
  match t with
  | .scalar '(' :: r =>
    match r.dropWhile (· != Point.scalar ')') with
    | [] => t
    | _ :: r => r
  | t => t

/-- The names of tools in a text, arguments passed over. The bound is more than the number of code
points left. -/
def namesFrom : Nat → Text → List Text
  | 0, _ => []
  | bound + 1, t =>
    match t with
    | [] => []
    | p :: r =>
      if isNamePart p then
        let name := (p :: r).takeWhile isNamePart
        name :: namesFrom bound (afterArguments ((p :: r).dropWhile isNamePart))
      else namesFrom bound r

/-- The name of a tool in an element of a list: what stands before a bracket. -/
def nameOf (t : Text) : Text := Text.strip (t.takeWhile (· != Point.scalar '('))

/-- The names of the tools that a text or a list allows. -/
def toolNames (allowed : Value) : Attempt (List Text) := do
  match allowed with
  | .text t => return namesFrom (t.length + 1) t
  | v =>
    match v.items? with
    | none => return []
    | some items =>
      let shown ← (items.filter (!·.isNull)).mapM Value.shown
      return (shown.map nameOf).filter (!·.isEmpty)

/-- Each text once, at its first place. -/
def distinct (ts : List Text) : List Text :=
  ts.foldl (fun seen t => if seen.contains t then seen else seen ++ [t]) []

/-- The evidence of a tool. -/
def toolEvidence? (rules : RuleTables) (file tool : Text) : Option Evidence :=
  (rules.tools.get? tool).map fun r =>
    ⟨.frontmatter, file, none, ("allowed-tools: " : Text) ++ tool,
      ("Skill requires \"" : Text) ++ tool ++ "\" tool which needs local environment access",
      r.template.impact⟩

/-- The evidence of the restricted tools that a text or a list allows, each once. -/
def toolsEvidence (rules : RuleTables) (file : Text) (allowed : Value) : Attempt (List Evidence) :=
  (toolNames allowed).map fun names => (distinct names).filterMap (toolEvidence? rules file)

/-- The evidence of a list of surfaces that leaves some out; those are not supported. -/
def targetsEvidence? (file : Text) (targets : Value) : Attempt (Option Evidence) := do
  match targets.items? with
  | none => return none
  | some items =>
    let declared ← items.mapM Value.shown
    let missing := Target.all.filter fun t => !declared.contains t.name
    if missing.isEmpty then return none
    else
      let listed := Text.join ", " declared
      let verdict (t : Target) : Verdict :=
        if missing.contains t then .incompatible else .compatible
      return some ⟨.declaration, file, none, ("targets: [" : Text) ++ listed ++ "]",
        ("Author declares plugin targets: " : Text) ++ listed ++ ". Not listed: " ++
          Text.join ", " (missing.map Target.name), Impact.of verdict⟩

/-- The evidence of the fields before a document: its tools, and then its surfaces. -/
def fieldsEvidence (rules : RuleTables) (file : Text) (fields : Value) :
    Attempt (List Evidence) := do
  match fields.entries? with
  | none => return []
  | some entries =>
    let tools ← match Value.field entries "allowed-tools" with
      | .null => pure []
      | allowed => toolsEvidence rules file allowed
    let targets ← targetsEvidence? file (Value.field entries "targets")
    return tools ++ targets.toList

/-- The evidence of a plugin manifest: its surfaces. -/
def manifestEvidence (file : Text) (manifest : Value) : Attempt (List Evidence) := do
  match manifest.entries? with
  | none => return []
  | some entries =>
    let targets ← targetsEvidence? file (Value.field entries "targets")
    return targets.toList

end SurfaceAudit.Declaration
