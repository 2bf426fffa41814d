import SurfaceAudit.Program

/-!
# The command line

The program at a terminal. Standard input holds the paths of the files that the program may see, one
on a line and relative to the current directory; a path that ends in a slash is a directory. Files
that the run writes or changes are written back. The time in reports is that of the variable
`COMPAT_SCANNER_TIME`.
-/

namespace SurfaceAudit.Terminal

/-- A variable of the environment; a missing one is empty. -/
def environmentText (name : String) : IO Text := do
  return ((← IO.getEnv name).map Text.ofString).getD []

/-- The variables that hold settings. -/
def environment : IO Config.Environment := do
  return ⟨← environmentText "COMPAT_SCANNER_MODE", ← environmentText "COMPAT_SCANNER_WORKERS",
    ← environmentText "COMPAT_SCANNER_VERBOSE", ← environmentText "COMPAT_SCANNER_LOG_LEVEL"⟩

/-- Adds a file or directory to a tree. -/
def addPath (current : List Text) (root : Node) (path : String) : IO Node := do
  let names := current ++ Path.names (Text.ofString path)
  if path.endsWith "/" then
    return if (root.at? names).isSome then root else Node.put (.directory []) names root
  else
    let bytes ← IO.FS.readBinFile path
    return Node.put (.file bytes.toList) names root

/-- Adds the files and directories on the lines of a stream to a tree. -/
partial def addPaths (input : IO.FS.Stream) (current : List Text) (root : Node) : IO Node := do
  let line ← input.getLine
  if line.isEmpty then return root
  let path := (line.takeWhile (· != '\n')).toString
  let root ← if path.isEmpty then pure root else addPath current root path
  addPaths input current root

mutual

/-- The files of a tree with their places. -/
def files (here : List Text) : Node → List (List Text × List UInt8)
  | .file bytes => [(here, bytes)]
  | .link _ => []
  | .directory es => filesAmong here es

/-- The files among entries with their places. -/
def filesAmong (here : List Text) : List (Text × Node) → List (List Text × List UInt8)
  | [] => []
  | (name, n) :: r => files (here ++ [name]) n ++ filesAmong here r

end

/-- Writes the files back that a run has changed. -/
def writeBack (before after : Node) : IO Unit := do
  for (place, bytes) in files [] after do
    match before.at? place with
    | some (.file old) => if old != bytes then save place bytes
    | _ => save place bytes
where
  /-- Writes one file. -/
  save (place : List Text) (bytes : List UInt8) : IO Unit :=
    IO.FS.writeBinFile (Path.absolute place).toString ⟨bytes.toArray⟩

end SurfaceAudit.Terminal

open SurfaceAudit in
/-- Runs the program with the arguments of the command line. -/
def main (arguments : List String) : IO UInt32 := do
  let current := Path.names (Text.ofString (← IO.currentDir).toString)
  let start := Node.put (.directory []) current (.directory [])
  let root ← Terminal.addPaths (← IO.getStdin) current start
  let surroundings : Surroundings :=
    ⟨← Terminal.environment, ← Terminal.environmentText "COMPAT_SCANNER_TIME"⟩
  let (ending, console) := Program.run surroundings ⟨root, current⟩ (arguments.map Text.ofString)
  IO.print console.printed.toString
  IO.eprint console.complaints.toString
  Terminal.writeBack root console.disk.root
  match ending with
  | .exit code => return code.toUInt32
  | .fault f =>
    IO.eprintln f.message.toString
    return 1
