import SurfaceAudit.Json.Writer
import SurfaceAudit.FileTree.Disk
import SurfaceAudit.Report.Table
import SurfaceAudit.Text.Case

/-!
# Report files

A report is written to a path that was checked: the plain form of the path must not lie in a
directory of the system, its parent must exist, and it must not be a program or script that exists.
A report that cannot be written to its end is left as far as it was written.
-/

namespace SurfaceAudit.Report

/-- The directories of the system, by their names from the root down. -/
def systemDirectories : List (List Text) :=
  [["etc"], ["usr"], ["bin"], ["sbin"], ["var"], ["boot"], ["proc"], ["sys"], ["System"],
    ["Library"]]

/-- The suffixes of programs and scripts. -/
def programSuffixes : List Text :=
  [".exe", ".dll", ".so", ".sh", ".bash", ".zsh", ".py", ".js", ".rb"]

/-- The plain form of a path that a report may be written to. -/
def place (d : Disk) (path : Text) : Attempt Text := do
  if path.isEmpty then throw (.output .empty)
  let names ← d.plainNames path
  let plain := Path.absolute names
  match systemDirectories.find? (·.isPrefixOf names) with
  | some s => throw (.output (.sensitive (Path.absolute s)))
  | none => pure ()
  let parent := Path.absolute names.dropLast
  if !(← d.contains parent) then throw (.output (.noParent parent))
  -- A new file may have any suffix; only what is there already is kept safe.
  let suffix := (Path.suffix (names.getLast?.getD [])).lower
  if programSuffixes.contains suffix then
    if ← d.contains plain then throw (.output (.executable plain))
  return plain

/-- What is to be written to a file: the text as far as it can be made, and what ended it. -/
structure Draft where
  /-- The bytes of the text. -/
  bytes : List UInt8
  /-- What ended the text early. -/
  fault? : Option Fault

/-- Records up to the first one that has no bytes. -/
def tableDraftFrom : List (List Text) → List UInt8 → Draft
  | [], done => ⟨done, none⟩
  | r :: rest, done =>
    match Utf8.encode (Csv.record r) with
    | .ok bytes => tableDraftFrom rest (done ++ bytes)
    | .error o => ⟨done, some (.unencodable o)⟩

/-- The draft of a table. -/
def tableDraft (rs : List Result) : Draft := tableDraftFrom (records rs) []

/-- The draft of a document, which ends with a line feed. -/
def documentDraft (v : Value) : Draft :=
  match Json.draft v with
  | (t, some f) => ⟨t.flatMap Utf8.encodePoint, some f⟩
  | (t, none) => ⟨t.flatMap Utf8.encodePoint ++ [10], none⟩

/-- Writes a draft to a file. -/
def write (d : Disk) (path : Text) (draft : Draft) : Attempt Unit × Disk :=
  match d.write path draft.bytes with
  | .error f => (.error f, d)
  | .ok d =>
    match draft.fault? with
    | none => (.ok (), d)
    | some f => (.error f, d)

/-- Writes a draft to a file whose path was given, and answers with the plain path. -/
def writeTo (d : Disk) (path : Text) (draft : Draft) : Attempt Text × Disk :=
  match place d path with
  | .error f => (.error f, d)
  | .ok plain =>
    match write d plain draft with
    | (.ok (), d) => (.ok plain, d)
    | (.error f, d) => (.error f, d)

/-- Writes a document, if a path is given, and answers with the document. -/
def writeDocument (d : Disk) (document : Attempt Value) (path : Text) : Attempt Value × Disk :=
  match document with
  | .error f => (.error f, d)
  | .ok v =>
    if path.isEmpty then (.ok v, d)
    else
      match writeTo d path (documentDraft v) with
      | (.ok _, d) => (.ok v, d)
      | (.error f, d) => (.error f, d)

/-- A hyphen for a blank. -/
def hyphenated (p : Point) : Point := if p == ' ' then .scalar '-' else p

/-- The name of the file for the table of a plugin, if none is given. -/
def tableName (plugin : Text) : Text :=
  let name : Text := List.map hyphenated (Text.strip (plainCell plugin))
  (if name.isEmpty then ("scan" : Text) else name) ++ "-compatibility.csv"

/-- The name of the file for the table of a sweep, if none is given. -/
def sweepTableName : Text := "multi-scan-compatibility.csv"

/-- Writes a table to a file with a name of its own. -/
def writeNamed (d : Disk) (name : Text) (draft : Draft) : Attempt Text × Disk :=
  match d.plain name with
  | .error f => (.error f, d)
  | .ok plain =>
    match write d plain draft with
    | (.ok (), d) => (.ok plain, d)
    | (.error f, d) => (.error f, d)

/-- Writes the table of a result; without a path the name of the plugin gives one. -/
def writeTable (d : Disk) (r : Result) (path : Text) : Attempt Text × Disk :=
  if path.isEmpty then writeNamed d (tableName r.plugin) (tableDraft [r])
  else writeTo d path (tableDraft [r])

/-- Writes the table of a sweep. -/
def writeSweepTable (d : Disk) (rs : List Result) (path : Text) : Attempt Text × Disk :=
  if path.isEmpty then writeNamed d sweepTableName (tableDraft rs)
  else writeTo d path (tableDraft rs)

end SurfaceAudit.Report
