import SurfaceAudit.Csv
import SurfaceAudit.Result
import SurfaceAudit.Text.Lines

/-!
# Tables of evidence

A table has a row for each piece of evidence. Blanks in texts from plugins are collapsed, long texts
are cut, and a cell that a spreadsheet could take for a formula gets a tab in front.
-/

namespace SurfaceAudit.Report

/-- The code points with which formulas begin. -/
def formulaStarts : List Point :=
  [.scalar '=', .scalar '+', .scalar '-', .scalar '@', .scalar '\t', .scalar '\r']

/-- A cell that is no formula. -/
def defused (t : Text) : Text :=
  match t with
  | [] => []
  | p :: _ => if formulaStarts.contains p then .scalar '\t' :: t else t

/-- A text with a single blank between its words. -/
def collapsed (t : Text) : Text := Text.join " " t.words

/-- A text that has a number of code points at most; three dots stand for what is cut. -/
def shortened (limit : Nat) (t : Text) : Text :=
  if limit < t.length then t.take (limit - 3) ++ "..." else t

/-- A text from a plugin as a cell. -/
def plainCell (t : Text) : Text := defused (collapsed t)

/-- A text from a plugin as a cell of limited length. -/
def shortCell (limit : Nat) (t : Text) : Text := defused (shortened limit (collapsed t))

/-- The names of the columns. -/
def columns : List Text :=
  List.map Text.ofString ["Plugin", "Source", "File", "Line", "Signal", "Detail"] ++
    Target.all.map Target.name

/-- The name of a plugin as a cell. -/
def nameCell (plugin : Text) : Text :=
  let cell := plainCell plugin
  if cell.isEmpty then "unknown" else cell

/-- The row of a piece of evidence. -/
def row (plugin : Text) (e : Evidence) : List Text :=
  [nameCell plugin, defused e.source.name, plainCell e.file,
    (e.line.map Text.ofInt).getD [], shortCell 200 e.signal, shortCell 500 e.detail] ++
    Target.all.map fun t => (e.impact.on t).name

/-- The rows of a result. -/
def rows (r : Result) : List (List Text) := r.evidence.map (row r.plugin)

/-- The records of a table: the names of the columns, and the rows. -/
def records (rs : List Result) : List (List Text) := columns :: rs.flatMap rows

/-- The text of a table. -/
def table (rs : List Result) : Text := Csv.write (records rs)

end SurfaceAudit.Report
