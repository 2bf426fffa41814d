import SurfaceAudit.Script.Line

/-!
# Import lines of Python

An import line names modules: either one after `from`, or a list after `import`. Of a dotted path
the first name is the module.
-/

namespace SurfaceAudit.Script.Python

/-- The modules of the standard library. -/
def standardLibrary : List Text :=
  List.map Text.ofString
    ["__future__", "_thread", "abc", "argparse", "array", "ast", "asyncio", "atexit", "base64",
      "binascii", "bisect", "builtins", "bz2", "calendar", "cmath", "cmd", "code", "codecs",
      "codeop", "collections", "colorsys", "compileall", "concurrent", "configparser",
      "contextlib", "contextvars", "copy", "copyreg", "cProfile", "csv", "ctypes", "curses",
      "dataclasses", "datetime", "decimal", "difflib", "dis", "email", "enum", "errno",
      "faulthandler", "fcntl", "filecmp", "fileinput", "fnmatch", "fractions", "ftplib",
      "functools", "gc", "getopt", "getpass", "gettext", "glob", "graphlib", "grp", "gzip",
      "hashlib", "heapq", "hmac", "html", "http", "idlelib", "imaplib", "importlib", "inspect",
      "io", "ipaddress", "itertools", "json", "keyword", "linecache", "locale", "logging", "lzma",
      "mailbox", "math", "mimetypes", "mmap", "modulefinder", "multiprocessing", "netrc",
      "ntpath", "numbers", "operator", "os", "pathlib", "pdb", "pickle", "pickletools",
      "platform", "plistlib", "poplib", "posixpath", "pprint", "profile", "pstats", "pty", "pwd",
      "py_compile", "pyclbr", "pydoc", "queue", "quopri", "random", "re", "readline", "reprlib",
      "resource", "runpy", "sched", "secrets", "select", "selectors", "shelve", "shlex", "shutil",
      "signal", "site", "smtplib", "socket", "socketserver", "sqlite3", "ssl", "stat",
      "statistics", "string", "stringprep", "struct", "subprocess", "sys", "sysconfig", "syslog",
      "tabnanny", "tarfile", "tempfile", "termios", "test", "textwrap", "threading", "time",
      "timeit", "tkinter", "token", "tokenize", "tomllib", "trace", "traceback", "tracemalloc",
      "tty", "turtle", "types", "typing", "unicodedata", "unittest", "urllib", "uuid", "venv",
      "warnings", "wave", "weakref", "webbrowser", "xml", "xmlrpc", "zipapp", "zipfile",
      "zipimport", "zlib", "zoneinfo"]

/-- The code point belongs to a dotted path. -/
def isPath (p : Point) : Bool := p.isWord || p == '.'

/-- The first name of the path in a line that imports from a module. The path begins with a name,
not with a dot. -/
def fromModule? (line : Text) : Option Text := do
  let t ← afterBlanks? (← after? "from" line)
  let (name, t) ← run? Point.isWord t
  let t ← afterBlanks? (t.dropWhile isPath)
  let t ← after? "import" t
  if endsWord t then some name else none

/-- The text after the new name of a module, if it gets one. -/
def afterAlias (t : Text) : Text :=
  let rest : Option Text := do
    let t ← afterBlanks? (← after? "as" (← afterBlanks? t))
    let (_, t) ← run? Point.isWord t
    return t
  rest.getD t

/-- The further paths of a list of imports. The bound is the number of code points left. -/
def morePaths : Nat → Text → List Text
  | 0, _ => []
  | bound + 1, t =>
    match t.dropWhile Point.isBlank with
    | .scalar ',' :: r =>
      match run? isPath (r.dropWhile Point.isBlank) with
      | some (path, r) => path :: morePaths bound (afterAlias r)
      | none => []
    | _ => []

/-- The paths in a line that imports modules. -/
def importPaths (line : Text) : List Text :=
  let first : Option (Text × Text) := do
    run? isPath (← afterBlanks? (← after? "import" line))
  match first with
  | none => []
  | some (path, t) => path :: morePaths t.length (afterAlias t)

/-- The modules that a line imports. -/
def modules (line : Text) : List Text :=
  let t := line.strip
  match fromModule? t with
  | some name => [name]
  | none => (importPaths t).map fun path => path.takeWhile (· != Point.scalar '.')

/-- The modules of third parties that a line imports. -/
def thirdParty (line : Text) : List Text :=
  (modules line).filter fun m => !standardLibrary.contains m

end SurfaceAudit.Script.Python
