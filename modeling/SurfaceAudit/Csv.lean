import SurfaceAudit.Text.Point

/-!
# Comma-separated values

Every cell of a record stands in quotes, with a quote inside a cell written twice. Cells are
separated by commas, and a record ends with a carriage return and a line feed.
-/

namespace SurfaceAudit.Csv

/-- A code point inside a cell. -/
def escaped (p : Point) : Text := if p == '"' then [.scalar '"', .scalar '"'] else [p]

/-- A cell in quotes. -/
def cell (t : Text) : Text := .scalar '"' :: (t.flatMap escaped ++ [.scalar '"'])

/-- The end of a record. -/
def recordEnd : Text := [.scalar '\r', .scalar '\n']

/-- A record of cells. -/
def record (cells : List Text) : Text := Text.join "," (cells.map cell) ++ recordEnd

/-- The text of records. -/
def write (records : List (List Text)) : Text := records.flatMap record

end SurfaceAudit.Csv
