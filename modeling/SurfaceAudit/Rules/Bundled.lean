import SurfaceAudit.Rules.Table

/-!
# The bundled rules

The tables that are used unless others are given. The order of the command rules matters: installing
a package with an interpreter's own tool comes before running the interpreter.
-/

namespace SurfaceAudit.Bundled

open Pattern Pattern.Expr

/-- A boundary of a word. -/
def edge : Expr := anchor (.edge false)

/-- A blank. -/
def blank : Expr := unit (.ofCategory .space)

/-- One or more blanks. -/
def blanks : Expr := repeated .greedy 1 none blank

/-- A letter or digit that may be missing. -/
def optional (c : Char) : Expr := repeated .greedy 0 (some 1) (unit (.of c))

/-- Installing packages for one language. -/
def pipInstall : CommandRule :=
  ⟨10, "pip install", "\\bpip3?\\s+install\\b",
    all [edge, word "pip", optional '3', blanks, word "install", edge], .incompatibleDesktop⟩

/-- Installing packages for another. -/
def npmInstall : CommandRule :=
  ⟨20, "npm install", "\\bnpm\\s+install\\b",
    all [edge, word "npm", blanks, word "install", edge], .reviewDesktop⟩

/-- Running a package manager. -/
def uv : CommandRule :=
  ⟨30, "uv", "\\buv\\s+(?:run|pip|sync)\\b",
    all [edge, word "uv", blanks, alt (word "run") (alt (word "pip") (word "sync")), edge],
    .reviewDesktop⟩

/-- Running an interpreter. -/
def python : CommandRule :=
  ⟨40, "python3", "\\bpython3?\\s+", all [edge, word "python", optional '3', blanks],
    .reviewDesktop⟩

/-- Running a large shell. -/
def bash : CommandRule :=
  ⟨50, "bash", "\\bbash\\s+", all [edge, word "bash", blanks], .reviewDesktop⟩

/-- Running a small shell: its name as a word of its own at the start of a line or after a
separator, never as an extension. -/
def sh : CommandRule :=
  ⟨60, "sh", "(?:^|[\\s;|&])sh(?=\\s|$)",
    all [alt (anchor .lineStart)
        (unit ⟨false, .exact, [.category .space false false, .point 59, .point 124, .point 38]⟩),
      word "sh", ahead true (alt blank (anchor .lineEnd))],
    .reviewDesktop⟩

/-- Running an interpreter that is everywhere. -/
def node : CommandRule :=
  ⟨70, "node", "\\bnode\\s+", all [edge, word "node", blanks], .allOk⟩

/-- The bundled tables. -/
def tables : RuleTables where
  commands := [pipInstall, npmInstall, uv, python, bash, sh, node]
  binaries :=
    [("bash", ⟨"bash", .reviewDesktop⟩), ("node", ⟨"node", .allOk⟩), ("npx", ⟨"npx", .allOk⟩),
      ("python", ⟨"python3", .reviewDesktop⟩), ("python3", ⟨"python3", .reviewDesktop⟩),
      ("sh", ⟨"sh", .reviewDesktop⟩), ("uv", ⟨"uv", .reviewDesktop⟩)]
  scripts :=
    [(".py", ⟨"python-script", .reviewDesktop⟩), (".sh", ⟨"shell-script", .reviewDesktop⟩),
      (".bash", ⟨"shell-script", .reviewDesktop⟩), (".mjs", ⟨"node-script", .allOk⟩),
      (".js", ⟨"node-script", .allOk⟩), (".cjs", ⟨"node-script", .allOk⟩)]
  imports :=
    [("python", ⟨"third-party-import:", .reviewDesktop⟩),
      ("node", ⟨"third-party-require:", .reviewDesktop⟩)]
  tools :=
    [("Bash", ⟨"Bash", .incompatibleDesktopReviewCowork⟩),
      ("Edit", ⟨"Edit", .incompatibleDesktopReviewCowork⟩),
      ("Write", ⟨"Write", .incompatibleDesktopReviewCowork⟩),
      ("NotebookEdit", ⟨"NotebookEdit", .incompatibleDesktopReviewCowork⟩)]

end SurfaceAudit.Bundled
