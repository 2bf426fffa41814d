import SurfaceAudit.Evidence
import SurfaceAudit.Markdown.Fence
import SurfaceAudit.Rules.Table

/-!
# Commands in documents

The lines of executable blocks are commands, with or without a prompt before them. Each one that the
rules classify is evidence.
-/

namespace SurfaceAudit.Markdown

/-- The line without a prompt: blanks, a dollar sign and at least one blank. -/
def dropPrompt (line : Text) : Text :=
  match line.trimLeft Point.isBlank with
  | .scalar '$' :: p :: r => if p.isBlank then Text.trimLeft Point.isBlank r else line
  | _ => line

/-- The command of a line. -/
def command (line : Text) : Text := (dropPrompt line).strip

/-- The first part of a text that is long. -/
def excerpt (t : Text) : Text := t.take 120

/-- The evidence of a line of a block. -/
def lineEvidence? (rules : RuleTables) (file : Text) (l : BlockLine) : Option Evidence :=
  if l.fence.isExecutable then
    let c := command l.text
    (rules.classifyCommand c).map fun k =>
      ⟨.codeBlock, file, some l.number, k.signal,
        ("Code block runs '" : Text) ++ k.signal ++ "': " ++ excerpt c, k.impact⟩
  else none

/-- The evidence of the commands in a document, line by line. -/
def commandEvidence (rules : RuleTables) (file content : Text) : List Evidence :=
  (blockLines content).filterMap (lineEvidence? rules file)

end SurfaceAudit.Markdown
