import SurfaceAudit.Evidence
import SurfaceAudit.Rules.Table
import SurfaceAudit.Text.Lines
import SurfaceAudit.Value.Written

/-!
# Hooks

A hook configuration maps events to handlers: to a list of them, to a single one, or to groups of
handlers with a condition. The commands that handlers run are classified.
-/

namespace SurfaceAudit.Hooks

/-- The values that are mappings, by their entries. -/
def mappings (vs : List Value) : List (List (Value × Value)) := vs.filterMap Value.entries?

/-- The handlers of an entry in the list of an event: those of the group if the entry is one, and
else the entry itself. -/
def handlersOfEntry (entry : List (Value × Value)) : List (List (Value × Value)) :=
  match Value.field entry "hooks" with
  | .null => [entry]
  | inner =>
    match inner.items? with
    | some items => mappings items
    | none => if inner.isTrue then mappings [inner] else []

/-- The handlers of an event. -/
def handlersOfEvent (v : Value) : List (List (Value × Value)) :=
  match v.entries? with
  | some entry => handlersOfEntry entry
  | none => (mappings (v.items?.getD [])).flatMap handlersOfEntry

/-- The handlers of a mapping of events, each with the name of its event. -/
def handlers (events : List (Value × Value)) : List (Value × List (Value × Value)) :=
  events.flatMap fun (name, v) => (handlersOfEvent v).map (name, ·)

/-- The events of a configuration, which may stand inside a mapping of their own. -/
def events (config : Value) : List (Value × Value) :=
  match config.entries? with
  | none => []
  | some entries =>
    match Value.lookup entries "hooks" with
    | none => entries
    | some inner => inner.entries?.getD []

/-- The command that a handler runs, if it is one for commands and the command is not blank. -/
def command? (handler : List (Value × Value)) : Option Text :=
  if (Value.field handler "type").isText "command" then
    match Value.field handler "command" with
    | .text c => if (Text.strip c).isEmpty then none else some c
    | _ => none
  else none

/-- The evidence of a handler of an event. -/
def handlerEvidence? (rules : RuleTables) (file event : Text) (handler : List (Value × Value)) :
    Option Evidence := do
  let c ← command? handler
  let k ← rules.classifyCommand c
  return ⟨.hook, file, none, ("hook-command: " : Text) ++ k.signal,
    event ++ " hook runs '" ++ k.signal ++ "': " ++ c.take 120, k.impact⟩

/-- The evidence of a hook configuration, handler by handler. An event whose name cannot be written
has no evidence to show. -/
def evidence (rules : RuleTables) (file : Text) (config : Value) : Attempt (List Evidence) := do
  let found ← (handlers (events config)).mapM fun (name, handler) => do
    let event ← name.shown
    return handlerEvidence? rules file event handler
  return found.filterMap id

end SurfaceAudit.Hooks
