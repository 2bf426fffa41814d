import SurfaceAudit.Csv

/-!
# Reading comma-separated values

A reader of RFC 4180. It takes one code point after the other: a cell is bare, without quotes and
line ends, or it stands in quotes, and then a quote inside is written twice. Cells are separated by
commas and records by a carriage return and a line feed, which may be missing after the last record.

What `write` writes is read back as it was (`read_write`), whatever stands in the cells.
-/

namespace SurfaceAudit.Csv

/-- Where a reader is. -/
inductive Place where
  /-- At the beginning of a cell. -/
  | start
  /-- In a bare cell. -/
  | bare
  /-- Between the quotes of a cell. -/
  | quoted
  /-- After a quote in a cell in quotes, which ends the cell unless another one follows. -/
  | closed
  /-- After a carriage return that ends a record with the line feed to come. -/
  | returned
  deriving DecidableEq

/-- A reader: where it is, and what it has read, the last first. -/
structure Reader where
  /-- Where it is. -/
  place : Place := .start
  /-- The cell that is being read. -/
  cell : Text := []
  /-- The cells before it in its record. -/
  record : List Text := []
  /-- The records before. -/
  records : List (List Text) := []

namespace Reader

/-- The cell has ended. -/
def endCell (s : Reader) : Reader := ⟨.start, [], s.cell.reverse :: s.record, s.records⟩

/-- The record has ended with its cell. -/
def endRecord (s : Reader) : Reader := ⟨.start, [], [], s.endCell.record.reverse :: s.records⟩

/-- A code point that belongs to the cell. -/
def take (s : Reader) (place : Place) (p : Point) : Reader := { s with place, cell := p :: s.cell }

/-- A code point that ends a cell. -/
def leave? (s : Reader) (p : Point) : Option Reader :=
  if p == ',' then some s.endCell
  else if p == '\r' then some { s with place := .returned }
  else none

/-- A code point that ends a bare cell or belongs to it. -/
def bare? (s : Reader) (p : Point) : Option Reader :=
  match s.leave? p with
  | some s => some s
  | none => if p == '"' || p == '\n' then none else some (s.take .bare p)

/-- Reads a code point, if it may stand where the reader is. -/
def step (s : Reader) (p : Point) : Option Reader :=
  match s.place with
  | .start => if p == '"' then some { s with place := .quoted } else s.bare? p
  | .bare => s.bare? p
  | .quoted => some (if p == '"' then { s with place := .closed } else s.take .quoted p)
  | .closed => if p == '"' then some (s.take .quoted p) else s.leave? p
  | .returned => if p == '\n' then some s.endRecord else none

/-- The records at the end of the text. A record that has not begun is none. -/
def finish (s : Reader) : Option (List (List Text)) :=
  match s.place with
  | .quoted => none
  | .returned => none
  | .start => if s.record.isEmpty then some s.records.reverse else some s.endRecord.records.reverse
  | _ => some s.endRecord.records.reverse

end Reader

/-- The records of a text, if it is a table. -/
def read (t : Text) : Option (List (List Text)) := (t.foldlM Reader.step {}).bind Reader.finish

variable {done : List Text} {records : List (List Text)}

/-- Between the quotes, a code point is read as it was. -/
theorem foldlM_escaped (p : Point) (t : Text) :
    (escaped p).foldlM Reader.step ⟨.quoted, t, done, records⟩ =
      some ⟨.quoted, p :: t, done, records⟩ := by
  unfold escaped
  split
  · rename_i hp
    rw [eq_of_beq hp]
    rfl
  · rename_i hp
    simp [Reader.step, Reader.take, hp]

/-- Between the quotes, a text is read as it was. -/
theorem foldlM_flatMap_escaped (t before : Text) :
    (t.flatMap escaped).foldlM Reader.step ⟨.quoted, before, done, records⟩ =
      some ⟨.quoted, t.reverse ++ before, done, records⟩ := by
  induction t generalizing before with
  | nil => rfl
  | cons p r ih =>
    rw [List.flatMap_cons, List.foldlM_append, foldlM_escaped]
    simpa using ih (p :: before)

/-- A cell is read as it was, up to the quote that may end it. -/
theorem foldlM_cell (t : Text) :
    (cell t).foldlM Reader.step ⟨.start, [], done, records⟩ =
      some ⟨.closed, t.reverse, done, records⟩ := by
  have hopen : Reader.step ⟨.start, [], done, records⟩ (.scalar '"') =
      some ⟨.quoted, [], done, records⟩ := rfl
  rw [cell, List.foldlM_cons, hopen]
  dsimp only [Option.bind_eq_bind, Option.bind_some]
  rw [List.foldlM_append, foldlM_flatMap_escaped, List.append_nil]
  rfl

/-- A record is read as it was. -/
theorem foldlM_record (t : Text) (r : List Text) :
    (record (t :: r)).foldlM Reader.step ⟨.start, [], done, records⟩ =
      some ⟨.start, [], [], (done.reverse ++ t :: r) :: records⟩ := by
  induction r generalizing t done with
  | nil =>
    rw [record, List.map_singleton, Text.join, List.intercalate_singleton, List.foldlM_append,
      foldlM_cell]
    simp [recordEnd, Reader.step, Reader.leave?, Reader.endRecord, Reader.endCell]
  | cons u r ih =>
    have hjoin : record (t :: u :: r) = cell t ++ .scalar ',' :: record (u :: r) := by
      rw [record, record, List.map_cons, List.map_cons, Text.join, List.intercalate_cons_cons]
      simp [Text.join, Text.ofString]
    have hcomma : Reader.step ⟨.closed, t.reverse, done, records⟩ (.scalar ',') =
        some ⟨.start, [], t :: done, records⟩ := by
      simp [Reader.step, Reader.leave?, Reader.endCell]
    rw [hjoin, List.foldlM_append, foldlM_cell]
    dsimp only [Option.bind_eq_bind, Option.bind_some]
    rw [List.foldlM_cons, hcomma]
    dsimp only [Option.bind_eq_bind, Option.bind_some]
    rw [ih u, List.reverse_cons, List.append_assoc, List.singleton_append]

/-- Records after each other are read one by one. -/
theorem foldlM_write {rs : List (List Text)} (h : ∀ r ∈ rs, r ≠ []) :
    (write rs).foldlM Reader.step ⟨.start, [], [], records⟩ =
      some ⟨.start, [], [], rs.reverse ++ records⟩ := by
  induction rs generalizing records with
  | nil => rfl
  | cons r rest ih =>
    obtain ⟨t, cells, rfl⟩ := List.exists_cons_of_ne_nil (h r List.mem_cons_self)
    rw [write, List.flatMap_cons, List.foldlM_append, foldlM_record]
    simpa [write] using ih fun r hr => h r (List.mem_cons_of_mem _ hr)

/-- Records none of which is empty are read back from the text that is written for them, whatever
stands in their cells. -/
theorem read_write {rs : List (List Text)} (h : ∀ r ∈ rs, r ≠ []) : read (write rs) = some rs := by
  rw [read, foldlM_write h]
  simp [Reader.finish]

/-- A table that mixes bare cells and cells in quotes, and whose last record has no end. -/
example : read "a,\"b\"\"\n\"\r\n,c" = some ([["a", "b\"\n"], ["", "c"]] : List (List Text)) := by
  decide

/-- A cell does not go on after its quotes. -/
example : read "\"a\"b" = none := by decide

end SurfaceAudit.Csv
