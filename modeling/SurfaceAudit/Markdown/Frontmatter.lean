import SurfaceAudit.Text.Lines
import SurfaceAudit.Yaml.Document

/-!
# Fields before a document

A document may begin with fields between two lines of three hyphens. They are YAML; what is not is
passed over, but the lines are no part of the document's body all the same.
-/

namespace SurfaceAudit.Markdown

/-- The line before and after the fields. -/
def isRule (line : Text) : Bool := line.strip == ("---" : Text)

/-- The lines of the fields and those of the body, if there are fields. -/
def cut (rows : List Text) : Option (List Text × List Text) :=
  match rows with
  | [] => none
  | first :: r =>
    if isRule first then
      match r.dropWhile (!isRule ·) with
      | [] => none
      | _ :: body => some (r.takeWhile (!isRule ·), body)
    else none

/-- Rows with line feeds between them. -/
def unrows (rows : List Text) : Text := Text.join [.scalar '\n'] rows

/-- The fields that a block of rows spells: a mapping, which is empty if the block is not YAML or
not a mapping. -/
def fieldsOf (block : List Text) : Attempt Value :=
  match Yaml.load (unrows block) with
  | .ok v => .ok (if v.entries?.isSome then v else .map [])
  | .error .malformed => .ok (.map [])
  | .error (.fault f) => .error f

/-- The fields and the body of a document. -/
def split (content : Text) : Attempt (Value × Text) :=
  match cut content.rows with
  | none => .ok (.map [], content)
  | some (block, body) => (fieldsOf block).map fun fields => (fields, unrows body)

end SurfaceAudit.Markdown
