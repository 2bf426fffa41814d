import SurfaceAudit.Proofs.Manifests
import SurfaceAudit.Proofs.Places

/-!
# What is within reach

Whatever recurses in a run takes up a stack, and a stack comes to its end: a text may be nested too
deeply to be read, a value to be written, a tree to be walked through, and links may lead to links
too often to be followed. The definitions have no stack. So a statement on all that goes wrong is
one on what is within reach, where nothing is nested so deeply that the calls for it do not fit on a
stack (`callLimit`). Levels are counted in texts of JSON and YAML (`Json.levels`,
`Yaml.IsWithinReach`), values (`Value.height`), patterns (`Pattern.IsWithinReach`), links
(`Disk.IsPassable`) and trees (`Plugin.IsWalkable`). The reading of a plugin is within reach if all
that it meets is (`Plugin.IsWithinReach`).
-/

namespace SurfaceAudit

/-- The number of calls inside one another that are within reach. A stack has room for a thousand,
and a hundred of these are left to what makes the first of the calls. -/
def callLimit : Nat := 900

namespace Json

/-- How a text is nested up to a place. -/
structure Nesting where
  /-- The number of brackets and braces that are open. -/
  opened : Nat := 0
  /-- The greatest number of them that were open at once. -/
  most : Nat := 0
  /-- The place is in a string. -/
  inString : Bool := false
  /-- The place is after a backslash in a string. -/
  escaped : Bool := false

/-- How a text is nested after a further code point. Brackets in strings do not count. -/
def Nesting.next (n : Nesting) (p : Point) : Nesting :=
  if n.inString then
    { n with
      inString := n.escaped || p != '"'
      escaped := !n.escaped && p == '\\' }
  else if p == '"' then { n with inString := true }
  else if p == '[' || p == '{' then
    { n with opened := n.opened + 1, most := max n.most (n.opened + 1) }
  else if p == ']' || p == '}' then { n with opened := n.opened - 1 }
  else n

/-- The number of levels to which a text is nested. -/
def levels (t : Text) : Nat := (t.foldl Nesting.next {}).most

end Json

namespace Yaml

/-- The number of collections that are open after a token. -/
def Token.opened (before : Nat) : Token → Nat
  | .blockSequenceStart | .blockMappingStart | .flowSequenceStart | .flowMappingStart => before + 1
  | .blockEnd | .flowSequenceEnd | .flowMappingEnd => before - 1
  | _ => before

/-- The token refers to a node by its name. -/
def Token.isAlias : Token → Bool
  | .alias _ => true
  | _ => false

/-- The number of levels to which a text is nested. -/
def levels (t : Text) : Nat :=
  ((tokens t).1.foldl (fun (opened, most) token =>
    (token.opened opened, max most (token.opened opened))) (0, 0)).2

/-- The number of references in a text to what it has named. -/
def aliases (t : Text) : Nat := (tokens t).1.toList.countP Token.isAlias

/-- The document of a text is within reach, where a level takes four calls at most. A reference goes
on where the node that it refers to does, so that each of them may add the levels of the text once
more. -/
def IsWithinReach (t : Text) : Prop := 4 * ((levels t + 1) * (aliases t + 1)) ≤ callLimit

instance (t : Text) : Decidable (IsWithinReach t) := inferInstanceAs (Decidable (_ ≤ _))

end Yaml

namespace Value

mutual

/-- The number of levels to which a value is nested as it is written. -/
def height : Value → Nat
  | .list items => heightAll items + 1
  | .tuple items => heightAll items + 1
  | .set items => heightAll items + 1
  | .map entries => heightEntries entries + 1
  | .knot drawing _ _ => height drawing
  | _ => 0

/-- The greatest `height` of the values. -/
def heightAll : List Value → Nat
  | [] => 0
  | v :: r => max (height v) (heightAll r)

/-- The greatest `height` of the keys and values. -/
def heightEntries : List (Value × Value) → Nat
  | [] => 0
  | (k, v) :: r => max (max (height k) (height v)) (heightEntries r)

end

end Value

/-- A pattern is within reach: its groups, which take four calls each at most, are not nested beyond
the limit, and none of its code points is written by its name, of which the definitions know some
hundreds only. -/
def Pattern.IsWithinReach (t : Text) : Prop :=
  4 * t.count (.scalar '(') ≤ callLimit ∧ ¬("\\N" : Text) <:+: t

instance (t : Text) : Decidable (Pattern.IsWithinReach t) := inferInstanceAs (Decidable (_ ∧ _))

namespace Disk

/-- The number of bytes of a file that are looked at before its text is. -/
def pieceLimit : Nat := 4096

/-- A file of YAML is within reach: its document is, or its bytes are no text, and so few that this
is seen before any of it is read. -/
structure IsLegible (d : Disk) (path : Text) : Prop where
  /-- The document is within reach. -/
  document : ∀ bytes t, d.read path = .ok bytes → Utf8.readPieces bytes = .ok t →
    Yaml.IsWithinReach t
  /-- What is no text is short. -/
  bytes : ∀ bytes defect, d.read path = .ok bytes → Utf8.readPieces bytes = .error defect →
    bytes.length ≤ pieceLimit

/-- The links that are met on the way to the plain form of a path, by their places. -/
def linksTo (d : Disk) (path : Text) : List (List Text) :=
  (plainFrom d.root (linkSteps d.root + (Path.names path).length + 1) (d.startOf path)
    (Path.names path) []).2.2.map (·.1)

/-- The plain form of a path is within reach: no more links are met on the way to it than may be
followed inside one another, and all of them can be seen. -/
structure IsPassable (d : Disk) (path : Text) : Prop where
  /-- There are few links. -/
  few : (d.linksTo path).length ≤ callLimit
  /-- The paths of their places are within the limit of the system. -/
  visible : ∀ place ∈ d.linksTo path, byteCount (Path.absolute place) ≤ pathLimit

instance (d : Disk) (path : Text) : Decidable (d.IsPassable path) :=
  decidable_of_iff _ ⟨fun h => ⟨h.1, h.2⟩, fun h => And.intro h.few h.visible⟩

end Disk

/-! ## Trees -/

namespace Node

mutual

/-- The number of names on the longest way down a tree. -/
def height : Node → Nat
  | .directory es => heightAll es
  | _ => 0

/-- `height` for entries, with their names. -/
def heightAll : List (Text × Node) → Nat
  | [] => 0
  | (_, n) :: r => max (height n + 1) (heightAll r)

end

mutual

/-- The greatest number of bytes on a way down a tree, with a slash before each name. -/
def span : Node → Nat
  | .directory es => spanAll es
  | _ => 0

/-- `span` for entries, with their names. -/
def spanAll : List (Text × Node) → Nat
  | [] => 0
  | (name, n) :: r => max (1 + Disk.byteCount name + span n) (spanAll r)

end

mutual

/-- The greatest number of levels to which the text of a file in a tree is nested. -/
def levels : Node → Nat
  | .file content => (Utf8.read content).toOption.elim 0 Json.levels
  | .link _ => 0
  | .directory es => levelsAll es

/-- `levels` for entries, with their names. -/
def levelsAll : List (Text × Node) → Nat
  | [] => 0
  | (_, n) :: r => max (levels n) (levelsAll r)

end

/-- The greatest amount of an entry is no less than that of any. -/
theorem le_of_mem (amount : Text × Node → Nat) {greatest : List (Text × Node) → Nat}
    (hcons : ∀ e es, greatest (e :: es) = max (amount e) (greatest es)) {es : List (Text × Node)}
    {e : Text × Node} (h : e ∈ es) : amount e ≤ greatest es := by
  induction es with
  | nil => cases h
  | cons x r ih =>
    rw [hcons]
    rcases List.mem_cons.mp h with rfl | h
    · exact Nat.le_max_left ..
    · exact Nat.le_trans (ih h) (Nat.le_max_right ..)

/-- An entry is less high than a directory with it. -/
theorem height_lt_of_mem {es : List (Text × Node)} {e : Text × Node} (h : e ∈ es) :
    e.2.height + 1 ≤ heightAll es :=
  le_of_mem (fun e => e.2.height + 1) (fun ⟨_, _⟩ _ => by rw [heightAll]) h

/-- With its name and a slash before it, an entry spans no more than a directory with it. -/
theorem span_le_of_mem {es : List (Text × Node)} {e : Text × Node} (h : e ∈ es) :
    1 + Disk.byteCount e.1 + e.2.span ≤ spanAll es :=
  le_of_mem (fun e => 1 + Disk.byteCount e.1 + e.2.span) (fun ⟨_, _⟩ _ => by rw [spanAll]) h

/-- The texts in an entry are nested no deeper than those in a directory with it. -/
theorem levels_le_of_mem {es : List (Text × Node)} {e : Text × Node} (h : e ∈ es) :
    e.2.levels ≤ levelsAll es :=
  le_of_mem (fun e => e.2.levels) (fun ⟨_, _⟩ _ => by rw [levelsAll]) h

/-- What is in a tree has no texts that are nested deeper than those in the tree. -/
theorem levels_le_of_at? {n m : Node} {q : List Text} (h : n.at? q = some m) :
    m.levels ≤ n.levels := by
  induction q generalizing n with
  | nil =>
    cases h
    exact Nat.le_refl _
  | cons name r ih =>
    obtain ⟨es, k, rfl, hk, hr⟩ := exists_directory_of_at? h
    rw [levels]
    exact Nat.le_trans (ih hr) (levels_le_of_mem (mem_entries hk))

/-- No way down is longer than the tree is high, or has more bytes than the tree spans. -/
theorem way_le {n m : Node} {below : List Text} (h : n.at? below = some m) :
    below.length ≤ n.height ∧ (below.map fun name => 1 + Disk.byteCount name).sum ≤ n.span := by
  induction below generalizing n with
  | nil => exact ⟨Nat.zero_le _, Nat.zero_le _⟩
  | cons name r ih =>
    obtain ⟨es, k, rfl, hk, hr⟩ := exists_directory_of_at? h
    have hmem := mem_entries hk
    obtain ⟨hlength, hbytes⟩ := ih hr
    have hheight := height_lt_of_mem hmem
    have hspan := span_le_of_mem hmem
    rw [List.length_cons, List.map_cons, List.sum_cons, height, span]
    dsimp only at hheight hspan
    omega

end Node

namespace Disk

/-- The text of a file is nested no deeper than the texts in the tree. -/
theorem levels_le_of_read {d : Disk} {path t : Text} {bytes : List UInt8}
    (hbytes : d.read path = .ok bytes) (ht : Utf8.read bytes = .ok t) :
    Json.levels t ≤ d.root.levels := by
  have hplace : ∃ place, d.locate path = .ok (place, some (.file bytes)) := by
    unfold read at hbytes
    split at hbytes
    · cases hbytes
    split at hbytes
    · rename_i hlocate
      cases hbytes
      exact ⟨_, hlocate⟩
    all_goals cases hbytes
  obtain ⟨place, hlocate⟩ := hplace
  unfold locate at hlocate
  split at hlocate
  · cases hlocate
  have hle := Node.levels_le_of_at? (at?_of_follow linkLimit hlocate)
  rw [Node.levels, ht] at hle
  exact hle

/-- The bytes of two texts are those of the first and of the second. -/
theorem byteCount_append (s t : Text) : byteCount (s ++ t) = byteCount s + byteCount t := by
  unfold byteCount
  rw [List.flatMap_append, List.length_append]

/-- A slash is one byte. -/
theorem byteCount_slash (t : Text) : byteCount (.scalar '/' :: t) = 1 + byteCount t :=
  byteCount_append [.scalar '/'] t

/-- The path of names has a slash before each of them but the first. -/
theorem byteCount_ofNames_cons (name : Text) (r : List Text) :
    byteCount (Path.ofNames (name :: r)) =
      byteCount name + if r = [] then 0 else 1 + byteCount (Path.ofNames r) := by
  cases r with
  | nil => rw [Path.ofNames_singleton, if_pos rfl, Nat.add_zero]
  | cons m r =>
    rw [Path.ofNames_cons_cons, byteCount_append, byteCount_slash, if_neg (List.cons_ne_nil m r)]

/-- A path has no more bytes than its names, each with a slash before it. -/
theorem byteCount_ofNames_le (names : List Text) :
    (if names = [] then 0 else 1 + byteCount (Path.ofNames names)) ≤
      (names.map fun name => 1 + byteCount name).sum := by
  induction names with
  | nil => exact Nat.le_refl 0
  | cons name r ih =>
    rw [if_neg (List.cons_ne_nil name r), byteCount_ofNames_cons, List.map_cons, List.sum_cons]
    omega

/-- The path of further names has a slash more for each of them at most. -/
theorem byteCount_ofNames_append_le (here below : List Text) :
    byteCount (Path.ofNames (here ++ below)) ≤
      byteCount (Path.ofNames here) + (below.map fun name => 1 + byteCount name).sum := by
  have hbelow := byteCount_ofNames_le below
  induction here with
  | nil =>
    rw [List.nil_append]
    split at hbelow
    · subst below
      exact Nat.le_add_right ..
    · omega
  | cons name r ih =>
    rw [List.cons_append, byteCount_ofNames_cons, byteCount_ofNames_cons]
    by_cases hr : r = []
    · subst hr
      rw [List.nil_append, if_pos rfl]
      omega
    · rw [if_neg hr, if_neg (List.append_ne_nil_of_left_ne_nil hr below)]
      omega

/-- So has the path of further names below a place. -/
theorem byteCount_absolute_append_le (here below : List Text) :
    byteCount (Path.absolute (here ++ below)) ≤
      byteCount (Path.absolute here) + (below.map fun name => 1 + byteCount name).sum := by
  have h := byteCount_ofNames_append_le here below
  rw [Path.absolute, Path.absolute, byteCount_slash, byteCount_slash]
  omega

end Disk

namespace Plugin

/-- A walk through a plugin is within reach, where directories with some names are passed over. -/
structure IsWalkable (p : Plugin) (d : Disk) (skipped : List Value) : Prop where
  /-- No directory that is entered is too many levels down. -/
  depth : ∀ n below es, d.find? p.path = some n → n.at? below = some (.directory es) →
    (∀ name ∈ below, (p.guide d skipped).enters name = true) → below.length ≤ callLimit
  /-- The paths of what is met are within the limit of the system. -/
  paths : ∀ n below m, d.find? p.path = some n → n.at? below = some m →
    (∀ name ∈ below.dropLast, (p.guide d skipped).enters name = true) →
    Disk.byteCount (Path.absolute (p.directory ++ below)) ≤ Disk.pathLimit

/-- In a tree that is neither high nor wide every walk through a plugin is within reach. -/
theorem isWalkable_of_root {p : Plugin} {d : Disk} {skipped : List Value}
    (hheight : d.root.height ≤ callLimit)
    (hspan : Disk.byteCount p.path + d.root.span ≤ Disk.pathLimit) : p.IsWalkable d skipped := by
  -- Each way down from the plugin is the end of one down from the root.
  have hway {n m : Node} {below : List Text} (hn : d.find? p.path = some n)
      (hm : n.at? below = some m) : below.length ≤ d.root.height ∧
        (below.map fun name => 1 + Disk.byteCount name).sum ≤ d.root.span := by
    obtain ⟨q, hq⟩ := Disk.follow_of_find? hn
    have hroot : d.root.at? (q ++ below) = some m := by
      rw [Node.at?_append, Disk.at?_of_follow Disk.linkLimit hq, Option.bind_some, hm]
    obtain ⟨hlength, hbytes⟩ := Node.way_le hroot
    rw [List.length_append] at hlength
    rw [List.map_append, List.sum_append] at hbytes
    exact ⟨by omega, by omega⟩
  constructor
  · intro n below es hn hm _
    exact Nat.le_trans (hway hn hm).1 hheight
  · intro n below m hn hm _
    have hbytes := Disk.byteCount_absolute_append_le p.directory below
    have hsum := (hway hn hm).2
    unfold path at hspan
    omega

/-- The text of a file is within reach as far as its kind is read: the fields of a document are, and
a configuration is not nested too deeply. -/
def FitsKind (kind : FileKind) (content : Text) : Prop :=
  match kind with
  | .markdown => ∀ x ∈ Markdown.cut content.rows, Yaml.IsWithinReach (Markdown.unrows x.1)
  | .hooks | .servers => Json.levels content ≤ callLimit
  | _ => True

instance (kind : FileKind) (content : Text) : Decidable (FitsKind kind content) := by
  unfold FitsKind
  split <;> infer_instance

/-- The reading of the plugin at a path is within reach. -/
structure IsWithinReach (d : Disk) (path : Text) (settings : FileSettings) : Prop where
  /-- The plain form of the path is. -/
  links : d.IsPassable path
  /-- So is the walk through the plugin. -/
  walk : ∀ p names skipped, open? d path settings = .ok p →
    settings.skipDirectories.elements = .ok names → names.mapM Value.asKey = .ok skipped →
    p.IsWalkable d skipped
  /-- The manifest is not nested too deeply. -/
  manifest : ∀ p place text, open? d path settings = .ok p → p.ManifestSpells d place text →
    Json.levels text ≤ callLimit
  /-- The texts of the files that are listed are within reach. -/
  files : ∀ p paths relative kind content, open? d path settings = .ok p →
    (p.collect d).outcome = .ok paths → relative ∈ paths → p.kindOf relative = .ok kind →
    p.Holds d relative content → FitsKind kind content

end Plugin

end SurfaceAudit
