import SurfaceAudit.Yaml.Token.Stream

/-!
# The nodes of a YAML document

A document is a graph of nodes: scalars, sequences and mappings, each with its tag. Nodes are
numbered, and an alias is the number of the node it refers to, so that a node may be part of several
collections and even of itself. A stream gives its only document, or none.
-/

namespace SurfaceAudit.Yaml

/-- The tags that values have. -/
inductive Tag where
  /-- Nothing. -/
  | null
  /-- A truth value. -/
  | bool
  /-- An integer. -/
  | int
  /-- A floating point number. -/
  | float
  /-- A day or moment. -/
  | timestamp
  /-- Bytes. -/
  | binary
  /-- A text. -/
  | str
  /-- A sequence. -/
  | seq
  /-- A mapping. -/
  | map
  /-- A set. -/
  | set
  /-- A sequence of pairs with keys in order. -/
  | omap
  /-- A sequence of pairs. -/
  | pairs
  /-- The key of mappings to be merged. -/
  | merge
  /-- The key of the value that stands for a mapping. -/
  | value
  /-- A tag that has no values. -/
  | unknown
  deriving DecidableEq, Inhabited

/-- The names of the tags after the common start. -/
def Tag.names : List (Text × Tag) :=
  [("null", .null), ("bool", .bool), ("int", .int), ("float", .float), ("timestamp", .timestamp),
    ("binary", .binary), ("str", .str), ("seq", .seq), ("map", .map), ("set", .set),
    ("omap", .omap), ("pairs", .pairs), ("merge", .merge), ("value", .value)]

/-- The common start of the tags. -/
def Tag.start : Text := "tag:yaml.org,2002:"

/-- The tag with a full name. -/
def Tag.ofText (t : Text) : Tag :=
  if t.startsWith Tag.start then
    ((Tag.names.find? (·.1 == t.drop Tag.start.length)).map (·.2)).getD .unknown
  else .unknown

/-- The tag of a node as it is written: missing, the mark for no tag, or a name. -/
inductive Tagging where
  /-- No tag is written. -/
  | none
  /-- The mark that stands for no tag. -/
  | mark
  /-- A tag. -/
  | named (tag : Tag)

/-- A node. -/
inductive Node where
  /-- A scalar. -/
  | scalar (tag : Tag) (text : Text)
  /-- A sequence with the numbers of its elements. -/
  | sequence (tag : Tag) (items : List Nat)
  /-- A mapping with the numbers of its keys and values. -/
  | mapping (tag : Tag) (entries : List (Nat × Nat))
  deriving Inhabited

/-- How the tag of an untagged plain scalar is found. -/
abbrev Resolver := Text → Tag

/-- The nodes and names found so far, and the tokens left. -/
structure Builder where
  /-- The tokens that are left. -/
  tokens : List Token
  /-- Why there are no more tokens, if that is no end of the stream. -/
  failure : Failure
  /-- The nodes by number. -/
  nodes : Array Node
  /-- The numbers of the named nodes. -/
  anchors : List (Text × Nat)
  /-- The starts of tags by handle. -/
  handles : List (Text × Text)

namespace Builder

/-- The handles that are known without a directive. -/
def knownHandles : List (Text × Text) := [("!", "!"), ("!!", Tag.start)]

/-- The next token; without one, the failure. -/
def token (b : Builder) : Except Failure Token :=
  match b.tokens with
  | t :: _ => .ok t
  | [] => .error b.failure

/-- The state after the next token. -/
def skip (b : Builder) : Builder := { b with tokens := b.tokens.drop 1 }

/-- A new node, and the state with it. -/
def add (b : Builder) (n : Node) : Nat × Builder :=
  (b.nodes.size, { b with nodes := b.nodes.push n })

/-- The state with a node replaced. -/
def set (b : Builder) (i : Nat) (n : Node) : Builder :=
  { b with nodes := b.nodes.setIfInBounds i n }

/-- The state with a name for the node that comes next. -/
def name (b : Builder) : Option Text → Builder
  | none => b
  | some a => { b with anchors := (a, b.nodes.size) :: b.anchors }

/-- A scalar without text and without a tag. -/
def empty (resolve : Resolver) (b : Builder) : Nat × Builder := b.add (.scalar (resolve []) [])

/-- Reads the name and the tag before a node, in either order. -/
def properties (b : Builder) : Except Failure (Option Text × Tagging × Builder) := do
  let (anchor, b) ← match ← b.token with
    | .anchor a => pure (some a, b.skip)
    | _ => pure (none, b)
  let (tag, b) ← match ← b.token with
    | .tag handle suffix => pure (some (handle, suffix), b.skip)
    | _ => pure (none, b)
  -- A name may also come after the tag, but not on both sides of it.
  let (anchor, b) ← if anchor.isNone && tag.isSome then
      match ← b.token with
      | .anchor a => pure (some a, b.skip)
      | _ => pure (none, b)
    else pure (anchor, b)
  let full (t : Text) : Tagging := if t == ("!" : Text) then .mark else .named (Tag.ofText t)
  match tag with
  | none => return (anchor, .none, b)
  | some (none, suffix) => return (anchor, full suffix, b)
  | some (some handle, suffix) =>
    match b.handles.find? (·.1 == handle) with
    | some (_, start) => return (anchor, full (start ++ suffix), b)
    | none => .error .malformed

end Builder

/-- The tag of a collection. -/
def Tagging.collection (t : Tagging) (own : Tag) : Tag :=
  match t with
  | .named tag => tag
  | _ => own

/-- The tag of a scalar: the one that is written; else the one that its text suggests, if it is
plain or has the mark for no tag; else that of a text. -/
def Tagging.scalar (t : Tagging) (resolve : Resolver) (text : Text) (plain : Bool) : Tag :=
  match t with
  | .named tag => tag
  | .mark => resolve text
  | .none => if plain then resolve text else .str

/-- The token ends or separates what a key or value of a block may be. -/
def Token.closesBlockPart : Token → Bool
  | .key | .value | .blockEnd => true
  | _ => false

/-- The token ends what an entry of a flow collection may be. -/
def Token.closesFlowPart (closing : Token) (t : Token) : Bool :=
  t == .value || t == .flowEntry || t == closing

/-- Where a node stands: inside brackets, in a block, or as a key or value of a block, where a
sequence need not be indented. -/
inductive Position where
  /-- Inside brackets. -/
  | flow
  /-- In a block. -/
  | block
  /-- As a key or value of a block. -/
  | blockPart
  deriving DecidableEq

mutual

/-- Reads a node. The bound is at least twice the number of tokens left. -/
def node (resolve : Resolver) : Nat → Position → Builder → Except Failure (Nat × Builder)
  | 0, _, _ => .error .malformed
  | bound + 1, position, b => do
    if let .alias name := ← b.token then
      match b.anchors.find? (·.1 == name) with
      | some (_, i) => return (i, b.skip)
      | none => .error .malformed
    let (anchor, tag, b) ← b.properties
    let token ← b.token
    -- A name stands for one node only.
    if let some a := anchor then
      if b.anchors.any (·.1 == a) then .error .malformed
    -- The node is known by its name from here on, so that its own parts can refer to it.
    let b := b.name anchor
    let sequence := tag.collection .seq
    let mapping := tag.collection .map
    -- A sequence below a key need not be indented.
    if position == .blockPart && token == .blockEntry then
      let (i, b) := b.add (.sequence sequence [])
      indentless resolve bound sequence i [] b
    else match token with
    | .scalar text plain => return b.skip.add (.scalar (tag.scalar resolve text plain) text)
    | .flowSequenceStart =>
      let (i, b) := b.skip.add (.sequence sequence [])
      flowSequence resolve bound sequence i true [] b
    | .flowMappingStart =>
      let (i, b) := b.skip.add (.mapping mapping [])
      flowMapping resolve bound mapping i true [] b
    | .blockSequenceStart =>
      if position == .flow then .error .malformed
      else
        let (i, b) := b.skip.add (.sequence sequence [])
        blockSequence resolve bound sequence i [] b
    | .blockMappingStart =>
      if position == .flow then .error .malformed
      else
        let (i, b) := b.skip.add (.mapping mapping [])
        blockMapping resolve bound mapping i [] b
    | _ =>
      -- Nothing follows: a name or a tag alone makes an empty scalar.
      match anchor, tag with
      | none, .none => .error .malformed
      | _, .named t => return b.add (.scalar t [])
      | _, _ => return b.add (.scalar (resolve []) [])

/-- Reads the elements of an indented sequence; those read stand in reverse. -/
def blockSequence (resolve : Resolver) (bound : Nat) (tag : Tag) (i : Nat) (done : List Nat)
    (b : Builder) : Except Failure (Nat × Builder) :=
  match bound with
  | 0 => .error .malformed
  | bound + 1 => do
    match ← b.token with
    | .blockEntry =>
      let b := b.skip
      let next ← b.token
      if next == .blockEntry || next == .blockEnd then
        let (e, b) := b.empty resolve
        blockSequence resolve bound tag i (e :: done) b
      else
        let (e, b) ← node resolve bound .block b
        blockSequence resolve bound tag i (e :: done) b
    | .blockEnd => return (i, b.skip.set i (.sequence tag done.reverse))
    | _ => .error .malformed

/-- Reads the elements of a sequence that is not indented; those read stand in reverse. -/
def indentless (resolve : Resolver) (bound : Nat) (tag : Tag) (i : Nat) (done : List Nat)
    (b : Builder) : Except Failure (Nat × Builder) :=
  match bound with
  | 0 => .error .malformed
  | bound + 1 => do
    match ← b.token with
    | .blockEntry =>
      let b := b.skip
      let next ← b.token
      if next == .blockEntry || next.closesBlockPart then
        let (e, b) := b.empty resolve
        indentless resolve bound tag i (e :: done) b
      else
        let (e, b) ← node resolve bound .block b
        indentless resolve bound tag i (e :: done) b
    | _ => return (i, b.set i (.sequence tag done.reverse))

/-- Reads the entries of an indented mapping; those read stand in reverse. -/
def blockMapping (resolve : Resolver) (bound : Nat) (tag : Tag) (i : Nat)
    (done : List (Nat × Nat)) (b : Builder) : Except Failure (Nat × Builder) :=
  match bound with
  | 0 => .error .malformed
  | bound + 1 => do
    match ← b.token with
    | .key =>
      let b := b.skip
      let (k, b) ← if (← b.token).closesBlockPart then pure (b.empty resolve)
        else node resolve bound .blockPart b
      match ← b.token with
      | .value =>
        let b := b.skip
        let (v, b) ← if (← b.token).closesBlockPart then pure (b.empty resolve)
          else node resolve bound .blockPart b
        blockMapping resolve bound tag i ((k, v) :: done) b
      | _ =>
        let (v, b) := b.empty resolve
        blockMapping resolve bound tag i ((k, v) :: done) b
    | .blockEnd => return (i, b.skip.set i (.mapping tag done.reverse))
    | _ => .error .malformed

/-- Reads the elements of a sequence in brackets; those read stand in reverse. A key among them
makes a mapping with one entry. -/
def flowSequence (resolve : Resolver) (bound : Nat) (tag : Tag) (i : Nat) (first : Bool)
    (done : List Nat) (b : Builder) : Except Failure (Nat × Builder) :=
  match bound with
  | 0 => .error .malformed
  | bound + 1 => do
    let close (b : Builder) : Except Failure (Nat × Builder) :=
      .ok (i, b.skip.set i (.sequence tag done.reverse))
    let token ← b.token
    if token == .flowSequenceEnd then close b
    else
      let b ← if first then pure b
        else if token == .flowEntry then pure b.skip
        else .error .malformed
      match ← b.token with
      | .key =>
        -- A key in a sequence begins a mapping of its own with one entry.
        let (m, b) := b.add (.mapping .map [])
        let b := b.skip
        let (k, b) ← if Token.closesFlowPart .flowSequenceEnd (← b.token) then
            pure (b.empty resolve)
          else node resolve bound .flow b
        let (v, b) ← if (← b.token) == .value then
            let b := b.skip
            if (← b.token) == .flowEntry || (← b.token) == .flowSequenceEnd then
              pure (b.empty resolve)
            else node resolve bound .flow b
          else pure (b.empty resolve)
        flowSequence resolve bound tag i false (m :: done) (b.set m (.mapping .map [(k, v)]))
      | .flowSequenceEnd => close b
      | _ =>
        let (e, b) ← node resolve bound .flow b
        flowSequence resolve bound tag i false (e :: done) b

/-- Reads the entries of a mapping in braces; those read stand in reverse. -/
def flowMapping (resolve : Resolver) (bound : Nat) (tag : Tag) (i : Nat) (first : Bool)
    (done : List (Nat × Nat)) (b : Builder) : Except Failure (Nat × Builder) :=
  match bound with
  | 0 => .error .malformed
  | bound + 1 => do
    let close (b : Builder) : Except Failure (Nat × Builder) :=
      .ok (i, b.skip.set i (.mapping tag done.reverse))
    let token ← b.token
    if token == .flowMappingEnd then close b
    else
      let b ← if first then pure b
        else if token == .flowEntry then pure b.skip
        else .error .malformed
      match ← b.token with
      | .key =>
        let b := b.skip
        let (k, b) ← if Token.closesFlowPart .flowMappingEnd (← b.token) then
            pure (b.empty resolve)
          else node resolve bound .flow b
        let (v, b) ← if (← b.token) == .value then
            let b := b.skip
            if (← b.token) == .flowEntry || (← b.token) == .flowMappingEnd then
              pure (b.empty resolve)
            else node resolve bound .flow b
          else pure (b.empty resolve)
        flowMapping resolve bound tag i false ((k, v) :: done) b
      | .flowMappingEnd => close b
      | _ =>
        let (k, b) ← node resolve bound .flow b
        let (v, b) := b.empty resolve
        flowMapping resolve bound tag i false ((k, v) :: done) b

end

/-- Reads the directives before a document. -/
def directives : List Token → Bool → List (Text × Text) →
    Except Failure (List Token × List (Text × Text))
  | .directive d :: r, versioned, handles =>
    match d with
    | .version major _ =>
      if versioned || major != 1 then .error .malformed else directives r true handles
    | .handle name start =>
      if handles.any (·.1 == name) then .error .malformed
      else directives r versioned ((name, start) :: handles)
    | .other => directives r versioned handles
  | r, _, handles => .ok (r, handles ++ Builder.knownHandles)

/-- The token is a directive, a mark between documents or the end of the stream. -/
def Token.leavesDocument : Token → Bool
  | .directive _ | .documentStart | .documentEnd | .streamEnd => true
  | _ => false

/-- The nodes of a document, and the number of its root. -/
structure Graph where
  /-- The nodes by number. -/
  nodes : Array Node
  /-- The number of the root. -/
  root : Nat

/-- Reads the root of a document. -/
def documentRoot (resolve : Resolver) (b : Builder) : Except Failure (Nat × Builder) := do
  if (← b.token).leavesDocument then return b.empty resolve
  else node resolve (2 * b.tokens.length + 2) .block b

/-- Checks that nothing is left after a document but marks for its end. -/
def checkEnd (b : Builder) : Except Failure Unit :=
  match b.tokens.dropWhile (· == .documentEnd) with
  | .streamEnd :: _ => .ok ()
  | [] => .error b.failure
  | _ => .error .malformed

/-- The only document of a stream, if there is one. -/
def graph? (resolve : Resolver) (t : Text) : Except Failure (Option Graph) := do
  let (tokens, failure) := Yaml.tokens t
  let b : Builder := ⟨tokens.toList, failure.getD .malformed, #[], [], Builder.knownHandles⟩
  let finish (built : Nat × Builder) : Except Failure (Option Graph) := do
    let (root, b) := built
    checkEnd b
    return some ⟨b.nodes, root⟩
  match ← b.token with
  | .streamEnd => return none
  | .directive _ | .documentStart =>
    let (rest, handles) ← directives b.tokens false []
    let b := { b with tokens := rest, handles := handles }
    if (← b.token) == .documentStart then finish (← documentRoot resolve b.skip)
    else .error .malformed
  | _ => finish (← node resolve (2 * b.tokens.length + 2) .block b)

end SurfaceAudit.Yaml
