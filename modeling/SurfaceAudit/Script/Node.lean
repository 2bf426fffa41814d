import SurfaceAudit.Script.Line

/-!
# Import lines of JavaScript

A line names packages by specifiers in quotes: in calls of `require` and `import` anywhere on the
line, and in an import or export statement at its start. The package of a specifier is its first
part, or the first two after an at sign.
-/

namespace SurfaceAudit.Script.Node

/-- The modules that come with the runtime. -/
def builtins : List Text :=
  List.map Text.ofString
    ["assert", "async_hooks", "buffer", "child_process", "cluster", "console", "constants",
      "crypto", "dgram", "diagnostics_channel", "dns", "domain", "events", "fs", "http", "http2",
      "https", "inspector", "module", "net", "os", "path", "perf_hooks", "process", "punycode",
      "querystring", "readline", "repl", "stream", "string_decoder", "sys", "timers", "tls",
      "trace_events", "tty", "url", "util", "v8", "vm", "wasi", "worker_threads", "zlib"]

/-- A quote of either kind. -/
def isQuote (p : Point) : Bool := p == '\'' || p == '"'

/-- The text without blanks at its start. -/
def skip (t : Text) : Text := t.dropWhile Point.isBlank

/-- A specifier in quotes at the start of a text, and the rest. The quotes may differ. -/
def specifier? (t : Text) : Option (Text × Text) :=
  match t with
  | [] => none
  | q :: r =>
    if isQuote q then do
      let (s, r) ← run? (!isQuote ·) r
      match r with
      | [] => none
      | _ :: r => some (s, r)
    else none

/-- The specifier of a call at the start of a text, and the rest. -/
def call? (word t : Text) : Option (Text × Text) := do
  let t := skip (← after? word t)
  let t ← after? "(" t
  let (s, t) ← specifier? (skip t)
  let t ← after? ")" (skip t)
  return (s, t)

/-- The specifiers of all calls in a text, given whether a word goes on into it. The bound is more
than the number of code points left. -/
def callsFrom (word : Text) : Nat → Bool → Text → List Text
  | 0, _, _ => []
  | _, _, [] => []
  | bound + 1, inWord, p :: r =>
    match if inWord then none else call? word (p :: r) with
    | some (s, rest) => s :: callsFrom word bound false rest
    | none => callsFrom word bound p.isWord r

/-- The specifiers of all calls in a line. -/
def calls (word line : Text) : List Text := callsFrom word (line.length + 1) false line

/-- What stands between a keyword and the specifier ends with `from`, as a word of its own. -/
def endsWithFrom (t : Text) : Bool :=
  match t.reverse.dropWhile Point.isBlank with
  | .scalar 'm' :: .scalar 'o' :: .scalar 'r' :: .scalar 'f' :: r =>
    !(r.head?.map Point.isWord).getD false
  | _ => false

/-- The specifier of a statement with a keyword at the start of a line. A clause between the two
ends with `from`; an import may do without a clause. -/
def statement? (keyword : Text) (clauseless : Bool) (line : Text) : Option Text := do
  let t ← afterBlanks? (← after? keyword (skip line))
  let clause := t.takeWhile (!isQuote ·)
  let (s, _) ← specifier? (t.dropWhile (!isQuote ·))
  if endsWithFrom clause || (clauseless && clause.isEmpty) then some s else none

/-- The specifiers on a line: calls first, then statements. -/
def specifiers (line : Text) : List Text :=
  calls "require" line ++ calls "import" line ++
    (statement? "import" true line).toList ++ (statement? "export" false line).toList

/-- The text begins with the scheme of an address. -/
def isAddress (t : Text) : Bool :=
  match t with
  | [] => false
  | c :: r =>
    let inScheme (p : Point) : Bool :=
      p.isAsciiLetter || p.isAsciiDigit || p == '+' || p == '.' || p == '-'
    c.isAsciiLetter && (after? "://" (r.dropWhile inScheme)).isSome

/-- The package of a specifier: nothing for local files, addresses and what comes with the
runtime. -/
def package? (s : Text) : Option Text :=
  if s.isEmpty || s.startsWith "." || s.startsWith "/" || s.startsWith "node:" || isAddress s then
    none
  else
    let name? : Option Text :=
      match s.fields (· == Point.scalar '/') with
      | [] => none
      | [a] => if s.startsWith "@" then none else some a
      | a :: b :: _ =>
        if s.startsWith "@" then if b.isEmpty then none else some (a ++ "/" ++ b)
        else some a
    name?.filter fun name => !builtins.contains name

/-- The packages that a line names. -/
def packages (line : Text) : List Text :=
  ((specifiers line).filterMap package?).filter (!·.isEmpty)

end SurfaceAudit.Script.Node
