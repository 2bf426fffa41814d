import SurfaceAudit.Text.Lines

/-!
# Paths

A path is a text with slashes. Its names are what stands between the slashes, empty names and single
dots left out; two dots stay, since only the file tree knows what they mean.
-/

namespace SurfaceAudit.Path

/-- A slash. -/
def isSlash (p : Point) : Bool := p == '/'

/-- The path starts at the root of the file tree. -/
def isAbsolute (t : Text) : Bool := (t.head?.map isSlash).getD false

/-- The names of a path. -/
def names (t : Text) : List Text :=
  (t.fields isSlash).filter fun n => !n.isEmpty && n != ("." : Text)

/-- The name for the directory above. -/
def up : Text := ".."

/-- What an absolute path starts with: a slash, or exactly two of them. -/
def root (t : Text) : Text :=
  match (t.takeWhile isSlash).length with
  | 0 => []
  | 2 => "//"
  | _ => "/"

/-- The text of names one below the other. -/
def ofNames (names : List Text) : Text := Text.join "/" names

/-- The text of an absolute path with given names. -/
def absolute (names : List Text) : Text := .scalar '/' :: ofNames names

/-- The path without what does not count in it; the empty path is a dot. -/
def tidy (t : Text) : Text :=
  let s := root t ++ ofNames (names t)
  if s.isEmpty then "." else s

/-- The last name of a path. -/
def lastName (t : Text) : Text := (names t).getLast?.getD []

/-- What stands last between slashes, which may be a single dot. -/
def lastPart (t : Text) : Text := ((t.fields isSlash).filter (!·.isEmpty)).getLast?.getD []

/-- What stands after the last slash. -/
def tail (t : Text) : Text := (t.reverse.takeWhile (!isSlash ·)).reverse

/-- The extension of a path: the last dot of its last part and what follows, unless only dots stand
before it there. -/
def extension (t : Text) : Text :=
  let name := tail t
  let after := (name.reverse.takeWhile (· != Point.scalar '.')).reverse
  let before := name.take (name.length - after.length - 1)
  if name.contains (.scalar '.') && before.any (· != Point.scalar '.') then
    .scalar '.' :: after
  else []

/-- The suffix of a name: the last dot and what follows, if something stands on both sides of it. -/
def suffix (name : Text) : Text :=
  let after := (name.reverse.takeWhile (· != Point.scalar '.')).reverse
  if name.contains (.scalar '.') && !after.isEmpty && after.length + 1 < name.length then
    .scalar '.' :: after
  else []

/-- A path below another, with a slash between them unless the other is empty or ends in one. -/
def below (directory name : Text) : Text :=
  if directory.isEmpty || directory.getLast? == some (.scalar '/') then directory ++ name
  else directory ++ .scalar '/' :: name

end SurfaceAudit.Path
