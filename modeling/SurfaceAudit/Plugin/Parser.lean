import SurfaceAudit.Plugin.Contents

/-!
# Parsers

A parser is made for a plugin and can be asked for its files, its manifest and its contents any
number of times. It writes its notes on a list. The lists that were made are told apart by number:
notes are added to a list in place, so whoever holds its number sees them. A parser begins a new
list for each reading of the contents, and hands out the number of a copy.
-/

namespace SurfaceAudit

/-- A parser of a plugin. -/
structure Parser where
  /-- The plugin. -/
  plugin : Plugin
  /-- The lists of notes that were made. -/
  lists : List (List Note)
  /-- The number of the list for the next notes. -/
  current : Nat

/-- What a parser has read of a plugin. -/
structure Parsed where
  /-- The contents. -/
  contents : Contents
  /-- The number of the list with the notes on them. -/
  list : Nat

namespace Parser

/-- A parser that was not asked for anything yet. -/
def fresh (p : Plugin) : Parser := ⟨p, [[]], 0⟩

/-- A parser for the plugin at a path. -/
def open? (d : Disk) (path : Text) (s : FileSettings) : Attempt Parser :=
  (Plugin.open? d path s).map fresh

/-- The notes on a list. -/
def notesOn (s : Parser) (list : Nat) : List Note := s.lists.getD list []

/-- The notes on the list for the next notes. -/
def notes (s : Parser) : List Note := s.notesOn s.current

/-- Makes a list of notes, and answers with its number. -/
def make (s : Parser) (ns : List Note) : Nat × Parser :=
  (s.lists.length, { s with lists := s.lists ++ [ns] })

/-- Begins a new list. -/
def renew (s : Parser) : Parser :=
  let (list, s) := s.make []
  { s with current := list }

/-- Takes a step whose notes are added to the list, also if it fails. -/
def take {α : Type} (s : Parser) (step : Noting α) : Attempt α × Parser :=
  let (outcome, notes) := step.runFrom s.notes
  (outcome, { s with lists := s.lists.set s.current notes })

/-- Lists the files of the plugin. -/
def collect (s : Parser) (d : Disk) : Attempt (List Text) × Parser := s.take (s.plugin.collect d)

/-- Reads the manifest of the plugin, which takes no notes. -/
def manifest (s : Parser) (d : Disk) : Attempt Manifest := s.plugin.manifest d

/-- Reads the contents of the plugin. -/
def parse (s : Parser) (d : Disk) : Attempt Parsed × Parser :=
  let s := s.renew
  match s.take (s.plugin.contents d) with
  | (.error f, s) => (.error f, s)
  | (.ok contents, s) =>
    let (list, s) := s.make s.notes
    (.ok ⟨contents, list⟩, s)

/-- What a parser can be asked for. -/
inductive Call where
  /-- The files. -/
  | collect
  /-- The manifest. -/
  | manifest
  /-- The contents. -/
  | parse
  deriving DecidableEq

/-- The parser after a call. -/
def call (d : Disk) (s : Parser) : Call → Parser
  | .collect => (s.collect d).2
  | .manifest => s
  | .parse => (s.parse d).2

/-- The parser after some calls. -/
def after (d : Disk) (s : Parser) (calls : List Call) : Parser := calls.foldl (call d) s

end Parser

end SurfaceAudit
