import SurfaceAudit.Number.Reading
import SurfaceAudit.Text.Class
import SurfaceAudit.Text.Lines

/-!
# Options of a command line

An option has long and short names. A long name may be cut short as long as it stays unambiguous,
and a value may follow it after an equals sign; short names may be joined, and the value of the last
may be joined to it. After two hyphens there are no more options.
-/

namespace SurfaceAudit.CommandLine

/-- What follows an option. -/
inductive Takes where
  /-- Nothing. -/
  | nothing
  /-- Any text. -/
  | text
  /-- An integer. -/
  | integer
  /-- One of some texts. -/
  | choice (among : List Text)
  deriving DecidableEq

/-- An option that is known by its key. -/
structure Switch (κ : Type) where
  /-- What the option is for. -/
  key : κ
  /-- The names of the option. -/
  names : List Text
  /-- What follows the option. -/
  takes : Takes

/-- What is wrong with a command line. -/
inductive Complaint where
  /-- The name of an option is cut short too much. -/
  | ambiguous (argument : Text) (names : List Text)
  /-- An option has a value that takes none. -/
  | unexpectedValue (names : List Text) (value : Text)
  /-- An option lacks its value. -/
  | valueMissing (names : List Text)
  /-- The value of an option is no integer. -/
  | notInteger (names : List Text) (value : Text)
  /-- The value of an option is none of its choices. -/
  | notAmong (names : List Text) (value : Text) (among : List Text)
  /-- There are arguments that mean nothing. -/
  | unrecognized (arguments : List Text)
  /-- There is no path of a plugin. -/
  | pathMissing
  deriving DecidableEq

namespace Complaint

/-- Words about an option. -/
def about (names : List Text) (words : Text) : Text :=
  ("argument " : Text) ++ Text.join "/" names ++ ": " ++ words

/-- The words for what is wrong. -/
def message : Complaint → Text
  | .ambiguous argument names =>
    ("ambiguous option: " : Text) ++ argument ++ " could match " ++ Text.join ", " names
  | .unexpectedValue names value =>
    about names (("ignored explicit argument " : Text) ++ value.quoted)
  | .valueMissing names => about names "expected one argument"
  | .notInteger names value => about names (("invalid int value: " : Text) ++ value.quoted)
  | .notAmong names value among =>
    about names (("invalid choice: " : Text) ++ value.quoted ++ " (choose from " ++
      Text.join ", " (among.map Text.quoted) ++ ")")
  | .unrecognized arguments =>
    ("unrecognized arguments: " : Text) ++ Text.join " " arguments
  | .pathMissing => "plugin_path is required"

end Complaint

variable {κ : Type}

/-- An option as it stands in an argument: under one of its names, and perhaps with a value, which
may follow an equals sign. -/
structure Mention (κ : Type) where
  /-- The option. -/
  option : Switch κ
  /-- The name by which it is mentioned. -/
  name : Text
  /-- The value stands after an equals sign. -/
  equals : Bool
  /-- The value in the same argument. -/
  value : Option Text

/-- What an argument is. -/
inductive Token (κ : Type) where
  /-- A word that is no option. -/
  | word (t : Text)
  /-- The two hyphens after which there are no more options. -/
  | divider
  /-- An option. -/
  | mention (m : Mention κ)
  /-- Something like an option. -/
  | unknown (t : Text)

/-- The options by their names, in order. -/
def named (options : List (Switch κ)) : List (Text × Switch κ) :=
  options.flatMap fun o => o.names.map fun n => (n, o)

/-- The option with a name. -/
def find? (options : List (Switch κ)) (name : Text) : Option (Switch κ) :=
  ((named options).find? (·.1 == name)).map (·.2)

/-- A hyphen. -/
def hyphen : Point := .scalar '-'

/-- An equals sign. -/
def equalsSign : Point := .scalar '='

/-- What stands before the first equals sign, and what stands after it if there is one. -/
def atEquals (t : Text) : Text × Option Text :=
  match t.span (· != equalsSign) with
  | (before, _ :: after) => (before, some after)
  | (before, []) => (before, none)

/-- The mentions of options that an argument may stand for. -/
def candidates (options : List (Switch κ)) (t : Text) : List (Mention κ) :=
  if Text.startsWith t "--" then
    let (name, value) := atEquals t
    ((named options).filter fun e => Text.startsWith e.1 name).map fun e =>
      ⟨e.2, e.1, value.isSome, value⟩
  else
    ((named options).filter fun e => e.1 == t.take 2).map fun e =>
      ⟨e.2, e.1, false, some (t.drop 2)⟩

/-- Digits only, at least one. -/
def areDigits (t : Text) : Bool := !t.isEmpty && t.all Point.isDigit

/-- The argument looks like a negative number. -/
def isNegative (t : Text) : Bool :=
  match t with
  | .scalar '-' :: r =>
    -- A line feed at the very end does not count.
    let r := if r.getLast? == some (.scalar '\n') then r.dropLast else r
    areDigits r ||
      match r.dropWhile Point.isDigit with
      | .scalar '.' :: r => areDigits r
      | _ => false
  | _ => false

/-- What an argument is that is not two hyphens. -/
def tokenOf (options : List (Switch κ)) (t : Text) : Except Complaint (Token κ) :=
  if t.head? != some hyphen || t.length == 1 then .ok (.word t)
  else
    match find? options t, (atEquals t).2, find? options (atEquals t).1 with
    -- A full name comes first, even if it holds an equals sign or begins other names.
    | some o, _, _ => .ok (.mention ⟨o, t, false, none⟩)
    | none, some value, some o => .ok (.mention ⟨o, (atEquals t).1, true, some value⟩)
    | _, _, _ =>
      match candidates options t with
      | [m] => .ok (.mention m)
      | m :: ms => .error (.ambiguous t ((m :: ms).map (·.name)))
      | [] =>
        .ok (if isNegative t || t.contains (.scalar ' ') then .word t else .unknown t)

/-- What the arguments are. -/
def tokens (options : List (Switch κ)) : List Text → Except Complaint (List (Token κ))
  | [] => .ok []
  | t :: r => do
    if t == ("--" : Text) then return .divider :: r.map .word
    else
      let first ← tokenOf options t
      return first :: (← tokens options r)

/-- An argument with options, taken apart. -/
structure Cluster (κ : Type) where
  /-- The options without a value. -/
  flags : List (Switch κ)
  /-- The option with a value that comes last; without one, the value is the next argument. -/
  last : Option (Switch κ × Option Text) := none
  /-- What means nothing. -/
  extra : Option Text := none

/-- Takes the rest of an argument with short options apart. -/
def clusterFrom (options : List (Switch κ)) (o : Switch κ) (isShort equals : Bool) :
    Text → List (Switch κ) → Except Complaint (Cluster κ)
  | [], done =>
    if o.takes == .nothing then .error (.unexpectedValue o.names [])
    else .ok ⟨done.reverse, some (o, some []), none⟩
  | p :: r, done =>
    -- What is joined to an option with a value is its value, and otherwise the next short option.
    if o.takes != .nothing then .ok ⟨done.reverse, some (o, some (p :: r)), none⟩
    else if !isShort || equals || p == hyphen then .error (.unexpectedValue o.names (p :: r))
    else
      let done := o :: done
      match find? options [hyphen, p], r with
      | none, _ => .ok ⟨done.reverse, none, some (hyphen :: p :: r)⟩
      | some next, [] =>
        .ok (if next.takes == .nothing then ⟨(next :: done).reverse, none, none⟩
          else ⟨done.reverse, some (next, none), none⟩)
      | some next, q :: s =>
        if q == equalsSign then clusterFrom options next true true s done
        else clusterFrom options next true false (q :: s) done

/-- Takes an argument with an option apart. -/
def cluster (options : List (Switch κ)) (m : Mention κ) : Except Complaint (Cluster κ) :=
  match m.value with
  | some value =>
    clusterFrom options m.option (m.name.drop 1 |>.head? |>.any (· != hyphen)) m.equals value []
  | none =>
    .ok (if m.option.takes == .nothing then ⟨[m.option], none, none⟩
      else ⟨[], some (m.option, none), none⟩)

/-- Checks the value of an option. -/
def check (o : Switch κ) (value : Text) : Except Complaint Unit :=
  match o.takes with
  | .integer =>
    match Number.readInt 10 value with
    | .ok _ => .ok ()
    | .error _ => .error (.notInteger o.names value)
  | .choice among =>
    if among.contains value then .ok () else .error (.notAmong o.names value among)
  | _ => .ok ()

/-- A command line that was read. -/
structure Reading (κ : Type) where
  /-- The options in order, with their values. -/
  given : List (κ × Text) := []
  /-- The word that is no option, if one is allowed and there is one. -/
  word : Option Text := none
  /-- What means nothing. -/
  extras : List Text := []
  deriving DecidableEq

/-- A command line is wrong, or asks for help. -/
inductive Stop where
  /-- The command line is wrong. -/
  | complaint (c : Complaint)
  /-- Help is asked for. -/
  | help
  deriving DecidableEq

/-- How options are read. -/
structure Grammar (κ : Type) where
  /-- The options. -/
  options : List (Switch κ)
  /-- The option asks for help. -/
  isHelp : κ → Bool
  /-- A word is allowed that is no option. -/
  allowsWord : Bool

namespace Grammar

/-- Adds options without values; one that asks for help ends the reading. -/
def addFlags (g : Grammar κ) (reading : Reading κ) :
    List (Switch κ) → Except Stop (Reading κ)
  | [] => .ok reading
  | o :: r =>
    if g.isHelp o.key then .error .help
    else g.addFlags { reading with given := reading.given ++ [(o.key, [])] } r

/-- Adds an option with its value. -/
def addValue (reading : Reading κ) (o : Switch κ) (value : Text) :
    Except Stop (Reading κ) :=
  match check o value with
  | .ok () => .ok { reading with given := reading.given ++ [(o.key, value)] }
  | .error c => .error (.complaint c)

/-- Adds what means nothing. -/
def addExtras (reading : Reading κ) (ts : List Text) : Reading κ :=
  { reading with extras := reading.extras ++ ts }

/-- The text of a token that is no option. -/
def tokenText : Token κ → Text
  | .word t => t
  | .divider => "--"
  | .mention m => m.name
  | .unknown t => t

/-- Reads tokens. The flag tells whether a word may still come. -/
def readFrom (g : Grammar κ) : List (Token κ) → Bool → Reading κ → Except Stop (Reading κ)
  | [], _, reading => .ok reading
  | .unknown t :: r, wordOpen, reading => g.readFrom r wordOpen (addExtras reading [t])
  -- The word takes the two hyphens beside it away; with no word to come they mean nothing.
  | .word t :: .divider :: r, true, reading =>
    .ok (addExtras { reading with word := some t } (r.map tokenText))
  | .word t :: r, true, reading => g.readFrom r false { reading with word := some t }
  | .word t :: r, false, reading => g.readFrom r false (addExtras reading [t])
  | .divider :: .word t :: r, true, reading =>
    .ok (addExtras { reading with word := some t } (r.map tokenText))
  | .divider :: r, true, reading => .ok (addExtras reading (r.map tokenText))
  | .divider :: r, false, reading =>
    .ok (addExtras reading (("--" : Text) :: r.map tokenText))
  | .mention m :: r, wordOpen, reading => do
    let c ← (cluster g.options m).mapError .complaint
    match c.last, r with
    | none, r =>
      let reading ← g.addFlags reading c.flags
      g.readFrom r wordOpen (addExtras reading c.extra.toList)
    | some (o, some value), r =>
      let reading ← g.addFlags reading c.flags
      g.readFrom r wordOpen (← addValue reading o value)
    | some (o, none), .word value :: r =>
      let reading ← g.addFlags reading c.flags
      g.readFrom r wordOpen (← addValue reading o value)
    | some (o, none), _ => .error (.complaint (.valueMissing o.names))

/-- Reads a command line. -/
def read (g : Grammar κ) (arguments : List Text) : Except Stop (Reading κ) := do
  let ts ← (tokens g.options arguments).mapError .complaint
  let reading ← g.readFrom ts g.allowsWord {}
  if reading.extras.isEmpty then return reading
  else .error (.complaint (.unrecognized reading.extras))

end Grammar

end SurfaceAudit.CommandLine
