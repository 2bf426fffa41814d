import SurfaceAudit.Evidence
import SurfaceAudit.Rules.Table
import SurfaceAudit.Value.Written

/-!
# Servers

A server configuration maps names to the commands that start servers: a program with arguments, or a
program alone. The program is looked up by its exact name.
-/

namespace SurfaceAudit.Servers

/-- The servers of a configuration, which may stand inside a mapping of their own. -/
def servers (config : Value) : List (Value × Value) :=
  match config.entries? with
  | none => []
  | some entries =>
    match Value.lookup entries "mcpServers" with
    | none => entries
    | some inner => inner.entries?.getD []

/-- The program of a server and its arguments, if there is a program. -/
def program? (server : Value) : Option (Text × Value) :=
  match server with
  | .text c => if c.isEmpty then none else some (c, .null)
  | server =>
    match server.entries? with
    | none => none
    | some entries =>
      match Value.field entries "command" with
      | .text c => if c.isEmpty then none else some (c, Value.field entries "args")
      | _ => none

/-- The program and its arguments on one line. -/
def launchLine (program : Text) (args : Value) : Attempt Text := do
  match args.items? with
  | none => return program
  | some items =>
    let shown ← items.mapM Value.shown
    return Text.join " " (program :: shown)

/-- The evidence of a server. -/
def serverEvidence? (rules : RuleTables) (file : Text) (name server : Value) :
    Attempt (Option Evidence) := do
  match program? server with
  | none => return none
  | some (program, args) =>
    match rules.classifyBinary program with
    | none => return none
    | some k =>
      let launch ← launchLine program args
      let shown ← name.shown
      return some ⟨.mcpServer, file, none, k.signal,
        ("MCP server '" : Text) ++ shown ++ "' launches with '" ++ launch.take 120 ++ "'",
        k.impact⟩

/-- The evidence of a server configuration, server by server. -/
def evidence (rules : RuleTables) (file : Text) (config : Value) : Attempt (List Evidence) := do
  let found ← (servers config).mapM fun (name, server) => serverEvidence? rules file name server
  return found.filterMap id

end SurfaceAudit.Servers
