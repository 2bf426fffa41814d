import SurfaceAudit.Evidence
import SurfaceAudit.FileTree.Path
import SurfaceAudit.Rules.Table
import SurfaceAudit.Script.Node
import SurfaceAudit.Script.Python

/-!
# Evidence in scripts

A script file needs its interpreter, which its extension tells, and the packages that it imports
from third parties. Each package is evidence on the first line that imports it.
-/

namespace SurfaceAudit.Script

/-- The evidence that a script file is by its extension alone. -/
def fileEvidence? (rules : RuleTables) (path : Text) : Option Evidence :=
  (rules.scripts.get? (Path.extension path).lower).map fun r =>
    ⟨.script, path, none, r.signal, ("Script file detected: " : Text) ++ path, r.template.impact⟩

/-- Adds names to those seen, each with the number of the line it is first seen on. -/
def noteAll (number : Nat) (seen : List (Text × Nat)) (names : List Text) : List (Text × Nat) :=
  names.foldl (fun seen n => if seen.any (·.1 == n) then seen else seen ++ [(n, number)]) seen

/-- The names on numbered lines, each once, with the number of the first line that has it. -/
def firstSeenFrom (names : Text → List Text) :
    Nat → List (Text × Nat) → List Text → List (Text × Nat)
  | _, seen, [] => seen
  | number, seen, line :: r =>
    firstSeenFrom names (number + 1) (noteAll number seen (names line)) r

/-- The names in a text, each once, with the number of the first line that has it. -/
def firstSeen (names : Text → List Text) (content : Text) : List (Text × Nat) :=
  firstSeenFrom names 1 [] content.lines

/-- The evidence of the imports in a text under the rule for a language. -/
def importEvidence (rules : RuleTables) (language : Text) (names : Text → List Text)
    (detail : Text → Text) (file content : Text) : List Evidence :=
  match rules.imports.get? language with
  | none => []
  | some r =>
    (firstSeen names content).map fun (name, number) =>
      ⟨.scriptImport, file, some number, r.signal ++ name, detail name, r.template.impact⟩

/-- The evidence of the imports in a Python script. -/
def pythonEvidence (rules : RuleTables) (file content : Text) : List Evidence :=
  importEvidence rules "python" Python.thirdParty
    (fun m => ("Third-party Python import \"" : Text) ++ m ++ "\" requires pip install")
    file content

/-- The evidence of the imports in a JavaScript script. -/
def nodeEvidence (rules : RuleTables) (file content : Text) : List Evidence :=
  importEvidence rules "node" Node.packages
    (fun p => ("Third-party Node.js package \"" : Text) ++ p ++ "\" requires npm install")
    file content

/-- The extensions of JavaScript scripts. -/
def nodeExtensions : List Text := [".js", ".mjs", ".cjs"]

/-- The evidence of the imports in a script, in the language that its extension tells. -/
def contentEvidence (rules : RuleTables) (file content : Text) : List Evidence :=
  let extension := (Path.extension file).lower
  if extension == (".py" : Text) then pythonEvidence rules file content
  else if nodeExtensions.contains extension then nodeEvidence rules file content
  else []

end SurfaceAudit.Script
