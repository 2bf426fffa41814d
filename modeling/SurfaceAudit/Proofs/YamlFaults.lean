import SurfaceAudit.Proofs.Steps
import SurfaceAudit.Yaml.Document

/-!
# What YAML fails with

A text is no YAML, or it is YAML up to a scalar that has no value: a date that does not exist, an
integer with too many digits, an escape for no code point. Other faults do not come out of YAML
(`Yaml.isOfScalar_of_load`). The reading of tokens, nodes and values is put together from steps that
fail in these two ways only (`Yaml.Fair`), by chaining them and by choosing between them, so it
fails in no other way.
-/

namespace SurfaceAudit

/-- The fault is one that a scalar may have. -/
inductive Fault.IsOfScalar : Fault → Prop where
  /-- The text of a number is empty. -/
  | emptyText : IsOfScalar .emptyText
  /-- The text spells no integer. -/
  | notInteger (base : Nat) (shown : Text) : IsOfScalar (.notInteger base shown)
  /-- The text spells no number. -/
  | notReal (shown : Text) : IsOfScalar (.notReal shown)
  /-- An integer has too many digits. -/
  | tooManyDigits (read : Option Nat) : IsOfScalar (.tooManyDigits read)
  /-- An integer is too large for a number. -/
  | integerToReal : IsOfScalar .integerToReal
  /-- The text is no truth value. -/
  | keyMissing (shown : Text) : IsOfScalar (.keyMissing shown)
  /-- The text has not the form of a moment. -/
  | partMissing (kind part : Text) : IsOfScalar (.partMissing kind part)
  /-- A day or a moment does not exist. -/
  | calendar (defect : Calendar.Defect) : IsOfScalar (.calendar defect)
  /-- What should be a moment is no text. -/
  | notText (kind : Text) : IsOfScalar (.kind (.notText kind))
  /-- A number is that of no code point. -/
  | notCodePoint : IsOfScalar .notCodePoint
  /-- A number is too large for a code point. -/
  | codePointSize : IsOfScalar .codePointSize

/-- The fault of a scalar is no defect of manifests. -/
theorem Fault.IsOfScalar.ne_manifest {f : Fault} (h : f.IsOfScalar) (defect : ManifestDefect) :
    f ≠ .manifest defect := by
  rintro rfl
  cases h

/-- A text spells no integer, or it spells one with too many digits. -/
theorem Number.of_readInt_error {base : Nat} {t : Text} {f : Fault}
    (h : Number.readInt base t = .error f) :
    (∃ shown, f = .notInteger base shown) ∨ ∃ read, f = .tooManyDigits read := by
  unfold Number.readInt Number.readIntShown at h
  dsimp only at h
  split at h
  · cases h
    exact .inl ⟨_, rfl⟩
  split at h
  · cases h
    exact .inr ⟨_, rfl⟩
  split at h
  · cases h
    exact .inl ⟨_, rfl⟩
  · cases h

namespace Yaml

variable {α β : Type}

/-- A failure is fair if it is that of a text that is no YAML, or a fault of a scalar. -/
def Failure.IsFair (e : Failure) : Prop := ∀ f, e = .fault f → f.IsOfScalar

/-- A text that is no YAML is a fair failure. -/
theorem Failure.isFair_malformed : Failure.malformed.IsFair := fun _ h => nomatch h

/-- A failure with the fault of a scalar is fair. -/
theorem Failure.isFair_fault {f : Fault} (h : f.IsOfScalar) : (Failure.fault f).IsFair := by
  intro g hg
  cases hg
  exact h

/-- An operation is fair if it fails with fair failures only. -/
def Fair (x : Except Failure α) : Prop := ∀ e, x = .error e → e.IsFair

namespace Fair

variable {x y : Except Failure α} {g : α → Except Failure β}

/-- A value is fair: it is no failure. -/
theorem ok (a : α) : Fair (.ok a) := fun _ h => nomatch h

/-- An operation that fails with a fair failure is fair. -/
theorem error {e : Failure} (h : e.IsFair) : Fair (.error e : Except Failure α) := by
  intro e he
  cases he
  exact h

/-- To fail because the text is no YAML is fair. -/
theorem malformed : Fair (.error .malformed : Except Failure α) := .error Failure.isFair_malformed

/-- The failure of a fair operation is fair elsewhere too. -/
theorem rethrow (h : Fair x) {e : Failure} (he : x = .error e) :
    Fair (.error e : Except Failure β) := .error (h e he)

/-- A chain of fair operations is fair. -/
theorem bind (h : Fair x) (hg : ∀ a, Fair (g a)) : Fair (x >>= g) := by
  cases hx : x with
  | ok a => exact hg a
  | error e => exact h.rethrow hx

/-- What is made of the value of a fair operation is fair. -/
theorem map (h : Fair x) (f : α → β) : Fair (x.map f) := by
  cases hx : x with
  | ok a => exact .ok _
  | error e => exact h.rethrow hx

/-- A choice between fair operations is fair. -/
theorem ite {c : Prop} [Decidable c] (hx : Fair x) (hy : Fair y) : Fair (if c then x else y) := by
  split
  · exact hx
  · exact hy

/-- A fair step that is taken for each member of a list is fair. -/
theorem foldlM {step : β → α → Except Failure β} (h : ∀ b a, Fair (step b a)) (items : List α)
    (b : β) : Fair (items.foldlM step b) := by
  induction items generalizing b with
  | nil => exact .ok b
  | cons a r ih =>
    rw [List.foldlM_cons]
    exact (h b a).bind ih

end Fair

/-! ## Tokens -/

section Tokens

variable (p : Place)

/-- An escape by number is read fairly: a number that is no code point is the fault of a scalar. -/
theorem fair_numbered (n : Nat) : Fair (numbered n) := by
  unfold numbered
  split
  · exact .ok _
  · refine .error (Failure.isFair_fault ?_)
    split
    · exact .notCodePoint
    · exact .codePointSize

/-- Empty lines inside quotes are read fairly. -/
theorem fair_quotedBreaks (bound : Nat) (done : List Text) : Fair (quotedBreaks bound p done) := by
  induction bound generalizing p done with
  | zero => exact .malformed
  | succ bound ih =>
    rw [quotedBreaks]
    refine .ite .malformed ?_
    dsimp only
    split
    · exact ih _ _
    · exact .ok _

/-- An escape in double quotes is read fairly. -/
theorem fair_doubleEscape : Fair (doubleEscape p) := by
  unfold doubleEscape
  split
  · exact .malformed
  split
  · exact (fair_numbered _).map _
  split
  · refine .ite .malformed ?_
    split
    · exact .malformed
    · exact (fair_numbered _).map _
  · split
    · exact fair_quotedBreaks _ _ _
    · exact .malformed

/-- A scalar in quotes is read fairly, whatever was read of it before. -/
theorem fair_quotedFrom (double : Bool) (bound : Nat) (pieces : List Text) :
    Fair (quotedFrom double bound p pieces) := by
  -- The branches are those of the function: an escape, a line break, or one more code point of the
  -- scalar.
  induction bound generalizing p pieces with
  | zero => exact .malformed
  | succ bound ih =>
    rw [quotedFrom]
    dsimp only
    split
    · exact .malformed
    refine .ite (.ite (ih _ _) (.ok _)) (.ite (ih _ _) (.ite ?_ ?_))
    · split
      · exact (fair_doubleEscape _).rethrow ‹_›
      · exact ih _ _
    · split
      · exact .ite .malformed (ih _ _)
      · split
        · exact (fair_quotedBreaks _ _ _).rethrow ‹_›
        · exact ih _ _

/-- The digit after an indicator is read fairly. -/
theorem fair_increment? : Fair (increment? p) := by
  unfold increment?
  split
  · exact .ite .malformed (.ite (.ok _) (.ok _))
  · exact .ok _

/-- The sign and the digit after an indicator are read fairly. -/
theorem fair_blockHeader : Fair (blockHeader p) := by
  unfold blockHeader
  split
  · refine (fair_increment? _).bind fun found => ?_
    split <;> exact .ok _
  · refine (fair_increment? _).bind fun found => ?_
    split
    · split <;> exact .ok _
    · exact .ok _

/-- The rest of the line of an indicator is read fairly. -/
theorem fair_restOfLine : Fair (restOfLine p) := by
  unfold restOfLine
  dsimp only
  split
  · exact .ok _
  · exact .ite (.ok _) .malformed

/-- A scalar with an indicator is read fairly. -/
theorem fair_blockScalar (fold : Bool) (indent : Int) : Fair (blockScalar fold indent p) :=
  (fair_blockHeader _).bind fun _ => .ite .malformed ((fair_restOfLine _).bind fun _ => .ok _)

/-- The name of an anchor or an alias is read fairly. -/
theorem fair_nodeName (make : Text → Token) : Fair (nodeName make p) := .ite .malformed (.ok _)

/-- The bytes that are written by number in a tag are read fairly. -/
theorem fair_uriBytes (bound : Nat) (done : List UInt8) : Fair (uriBytes bound p done) := by
  induction bound generalizing p done with
  | zero => exact .ok _
  | succ bound ih =>
    rw [uriBytes]
    refine .ite ?_ (.ok _)
    split
    · exact ih _ _
    · exact .malformed

/-- The end of a tag is read fairly. -/
theorem fair_tagUri (bound : Nat) (done : List Text) : Fair (tagUri bound p done) := by
  induction bound generalizing p done with
  | zero => exact .malformed
  | succ bound ih =>
    rw [tagUri]
    dsimp only
    refine .ite ?_ (.ite .malformed (.ok _))
    split
    · exact (fair_uriBytes _ _ _).rethrow ‹_›
    · split
      · exact .malformed
      · exact ih _ _

/-- The handle of a tag is read fairly. -/
theorem fair_tagHandle : Fair (tagHandle p) :=
  .ite .malformed (.ite (.ok _) (.ite (.ok _) .malformed))

/-- A tag is read fairly. -/
theorem fair_tag : Fair (tag p) := by
  have hdone (handle : Option Text) (suffix : Text) (p : Place) :
      Fair (if isGapNoTab p.here? then .ok (Token.tag handle suffix, p) else .error .malformed) :=
    .ite (.ok _) .malformed
  unfold tag
  refine .ite ?_ (.ite (hdone _ _ _) ?_)
  · split
    · exact (fair_tagUri _ _ _).rethrow ‹_›
    · exact .ite (hdone _ _ _) .malformed
  · dsimp only
    split
    · exact (Fair.ite (fair_tagHandle p) (.ok (("!" : Text), p.next))).rethrow ‹_›
    · split
      · exact (fair_tagUri _ _ _).rethrow ‹_›
      · exact hdone _ _ _

/-- A number of a version is read fairly. -/
theorem fair_versionNumber : Fair (versionNumber p) := .ite .malformed (.ok _)

/-- What a directive says is read fairly. -/
theorem fair_directiveValue (name : Text) : Fair (directiveValue name p) := by
  unfold directiveValue
  refine .ite ?_ (.ite ?_ (.ok _))
  · split
    · exact (fair_versionNumber _).rethrow ‹_›
    · refine .ite .malformed ?_
      split
      · exact (fair_versionNumber _).rethrow ‹_›
      · exact .ite (.ok _) .malformed
  · split
    · exact (fair_tagHandle _).rethrow ‹_›
    · refine .ite .malformed ?_
      dsimp only
      split
      · exact (fair_tagUri _ _ _).rethrow ‹_›
      · exact .ite (.ok _) .malformed

/-- A directive is read fairly at its place. -/
theorem fair_directive : Fair (directive p) := by
  unfold directive
  dsimp only
  refine .ite .malformed ?_
  split
  · exact (fair_directiveValue _ _).rethrow ‹_›
  · split
    · exact (fair_restOfLine _).rethrow ‹_›
    · exact .ok _

end Tokens

namespace Lexer

variable (l : Lexer)

/-- It is fair to forget the keys on earlier lines. -/
theorem fair_dropStaleKeys : Fair l.dropStaleKeys := .ite .malformed (.ok _)

/-- It is fair to forget the key inside the innermost brackets. -/
theorem fair_dropKey : Fair l.dropKey := .ite .malformed (.ok _)

/-- It is fair to remember a key. -/
theorem fair_saveKey : Fair l.saveKey := .ite ((fair_dropKey l).bind fun _ => .ok _) (.ok _)

/-- It is fair to close all collections. -/
theorem fair_closeAll : Fair l.closeAll := (fair_dropKey _).bind fun _ => .ok _

/-- The end of the stream is read fairly. -/
theorem fair_endStream : Fair l.endStream := (fair_closeAll l).bind fun _ => .ok _

/-- A mark between documents is read fairly. -/
theorem fair_documentMark (t : Token) : Fair (l.documentMark t) :=
  (fair_closeAll l).bind fun _ => .ok _

/-- A bracket or brace that opens is read fairly. -/
theorem fair_openFlow (t : Token) : Fair (l.openFlow t) := (fair_saveKey l).bind fun _ => .ok _

/-- A bracket or brace that closes is read fairly. -/
theorem fair_closeFlow (t : Token) : Fair (l.closeFlow t) :=
  .ite .malformed ((fair_dropKey l).bind fun _ => .ok _)

/-- A comma is read fairly. -/
theorem fair_flowEntry : Fair l.flowEntry := (fair_dropKey l).bind fun _ => .ok _

/-- A dash before an element is read fairly. -/
theorem fair_blockEntry : Fair l.blockEntry :=
  .ite .malformed ((fair_dropKey _).bind fun _ => .ok _)

/-- A question mark before a key is read fairly. -/
theorem fair_explicitKey : Fair l.explicitKey :=
  .ite .malformed ((fair_dropKey _).bind fun _ => .ok _)

/-- A colon after a key is read fairly. -/
theorem fair_mappingValue : Fair l.mappingValue := by
  unfold mappingValue
  split
  · exact .ok _
  · exact .ite .malformed ((fair_dropKey _).bind fun _ => .ok _)

/-- What may be a key is read fairly if it is read fairly at its place. -/
theorem fair_content {read : Place → Step Token} (h : ∀ p, Fair (read p)) :
    Fair (l.content read) := by
  refine (fair_saveKey l).bind fun l => ?_
  split
  · exact .ok _
  · exact (h _).rethrow ‹_›

/-- A scalar with an indicator makes a token fairly. -/
theorem fair_indicated (fold : Bool) : Fair (l.indicated fold) := by
  refine (fair_dropKey _).bind fun l => ?_
  split
  · exact .ok _
  · exact (fair_blockScalar _ _ _).rethrow ‹_›

/-- A plain scalar makes a token fairly. -/
theorem fair_plain : Fair l.plain := (fair_saveKey l).bind fun _ => .ok _

/-- A directive makes a token fairly. -/
theorem fair_directive : Fair l.directive := by
  refine (fair_closeAll l).bind fun l => ?_
  split
  · exact (Yaml.fair_directive _).rethrow ‹_›
  · exact .ok _

/-- The next token is read fairly, of whatever kind it is. -/
theorem fair_step : Fair l.step := by
  refine (fair_dropStaleKeys _).bind fun l => ?_
  dsimp only
  split
  · exact fair_endStream _
  · exact .ite (fair_directive _) <| .ite (fair_documentMark _ _) <| .ite (fair_openFlow _ _) <|
      .ite (fair_openFlow _ _) <| .ite (fair_closeFlow _ _) <| .ite (fair_closeFlow _ _) <|
      .ite (fair_flowEntry _) <| .ite (fair_blockEntry _) <| .ite (fair_explicitKey _) <|
      .ite (fair_mappingValue _) <| .ite (fair_content _ fun p => fair_nodeName p _) <|
      .ite (fair_content _ fun p => fair_nodeName p _) <| .ite (fair_content _ fair_tag) <|
      .ite (fair_indicated _ _) <| .ite (fair_indicated _ _) <|
      .ite (fair_content _ fun p => (fair_quotedFrom _ _ _ _).map _) <|
      .ite (fair_plain _) .malformed

/-- The reading of tokens ends with a fair failure, if with any. -/
theorem isFair_of_run (bound : Nat) {e : Failure} (h : (run bound l).2 = some e) : e.IsFair := by
  -- The bound running out is a failure as well, and one of those that are fair.
  induction bound generalizing l with
  | zero =>
    cases h
    exact Failure.isFair_malformed
  | succ bound ih =>
    rw [run] at h
    cases hs : l.step with
    | error failure =>
      rw [hs] at h
      cases h
      exact fair_step l e hs
    | ok next =>
      rw [hs] at h
      dsimp only at h
      split at h
      · cases h
      · exact ih next h

end Lexer

/-- The tokens of a text end with a fair failure, if with any. -/
theorem isFair_of_tokens {t : Text} {e : Failure} (h : (tokens t).2 = some e) : e.IsFair := by
  unfold tokens at h
  split at h
  · exact (Lexer.start t).isFair_of_run _ h
  · cases h
    exact Failure.isFair_malformed

/-! ## Nodes -/

/-- An operation is fair, and what it gives has a property. -/
def Gives (good : α → Prop) (x : Except Failure α) : Prop := Fair x ∧ ∀ a, x = .ok a → good a

/-- A fair operation gives a value of which nothing is said. -/
theorem Fair.gives {x : Except Failure α} (h : Fair x) : Gives (fun _ => True) x :=
  ⟨h, fun _ _ => trivial⟩

namespace Gives

variable {good : α → Prop} {good' : β → Prop} {x y : Except Failure α}
  {g : α → Except Failure β}

/-- A value with the property is given. -/
theorem ok {a : α} (h : good a) : Gives good (.ok a) :=
  ⟨.ok a, fun _ ha => Except.ok.inj ha ▸ h⟩

/-- To fail because the text is no YAML gives nothing, and is fair. -/
theorem malformed : Gives good (.error .malformed) := ⟨.malformed, fun _ h => nomatch h⟩

/-- A chain of operations gives what the second one gives. -/
theorem bind (h : Gives good x) (hg : ∀ a, good a → Gives good' (g a)) : Gives good' (x >>= g) := by
  obtain ⟨hx, hgood⟩ := h
  cases x with
  | ok a => exact hg a (hgood a rfl)
  | error e => exact ⟨hx.rethrow rfl, fun _ h => nomatch h⟩

/-- A chain of an operation and fair ones is fair. -/
theorem bind_fair (h : Gives good x) (hg : ∀ a, good a → Fair (g a)) : Fair (x >>= g) :=
  (h.bind fun a ha => (hg a ha).gives).1

/-- A choice gives what both operations give. -/
theorem ite {c : Prop} [Decidable c] (hx : Gives good x) (hy : Gives good y) :
    Gives good (if c then x else y) := by
  split
  · exact hx
  · exact hy

end Gives

namespace Builder

variable {b : Builder}

/-- The failure at the end of the tokens is fair. -/
def IsFair (b : Builder) : Prop := b.failure.IsFair

/-- A name for the node that comes next leaves the failure as it is. -/
theorem IsFair.name (h : b.IsFair) (anchor : Option Text) : (b.name anchor).IsFair := by
  cases anchor <;> exact h

/-- The next token is fair: if there is none, the failure is. -/
theorem IsFair.token (h : b.IsFair) : Gives (fun _ => True) b.token := by
  unfold Builder.token
  split
  · exact .ok trivial
  · exact (Fair.error h).gives

/-- Reading the name and the tag of a node leaves the failure at the end as it is. -/
theorem IsFair.properties (h : b.IsFair) : Gives (fun r => r.2.2.IsFair) b.properties := by
  refine h.token.bind fun token _ => ?_
  extract_lets full tagged
  -- The two properties may come in either order, so the reading is in three parts, each of which
  -- goes on with the next.
  have htagged (r : Option Text × Builder) (h : r.2.IsFair) :
      Gives (fun r => r.2.2.IsFair) (tagged r) := by
    obtain ⟨anchor, b⟩ := r
    refine IsFair.token h |>.bind fun token _ => ?_
    extract_lets named
    have hnamed (r : Option (Option Text × Text) × Builder) (h : r.2.IsFair) :
        Gives (fun r => r.2.2.IsFair) (named r) := by
      obtain ⟨tag, b⟩ := r
      dsimp -zeta only [named]
      extract_lets closed
      have hclosed (r : Option Text × Builder) (hr : r.2.IsFair) :
          Gives (fun r => r.2.2.IsFair) (closed r) := by
        unfold closed
        split
        · exact .ok hr
        · exact .ok hr
        · split
          · exact .ok hr
          · exact .malformed
      refine .ite (IsFair.token h |>.bind fun token _ => ?_) (hclosed (_, _) h)
      split
      · exact hclosed (_, _) h
      · exact hclosed (_, _) h
    split
    · exact hnamed (_, _) h
    · exact hnamed (_, _) h
  split
  · exact htagged (_, _) h
  · exact htagged (_, _) h

end Builder

/-- The reading of a node is fair, and leaves the failure at the end as it is. -/
abbrev Builds (x : Except Failure (Nat × Builder)) : Prop := Gives (fun r => r.2.IsFair) x

/-- The reading of nodes is fair up to a bound. -/
structure ReadsFairly (resolve : Resolver) (bound : Nat) : Prop where
  /-- A node. -/
  node (position : Position) {b : Builder} (h : b.IsFair) :
    Builds (node resolve bound position b)
  /-- An indented sequence. -/
  blockSequence (tag : Tag) (i : Nat) (done : List Nat) {b : Builder} (h : b.IsFair) :
    Builds (blockSequence resolve bound tag i done b)
  /-- A sequence that is not indented. -/
  indentless (tag : Tag) (i : Nat) (done : List Nat) {b : Builder} (h : b.IsFair) :
    Builds (indentless resolve bound tag i done b)
  /-- An indented mapping. -/
  blockMapping (tag : Tag) (i : Nat) (done : List (Nat × Nat)) {b : Builder} (h : b.IsFair) :
    Builds (blockMapping resolve bound tag i done b)
  /-- A sequence in brackets. -/
  flowSequence (tag : Tag) (i : Nat) (first : Bool) (done : List Nat) {b : Builder}
    (h : b.IsFair) : Builds (flowSequence resolve bound tag i first done b)
  /-- A mapping in braces. -/
  flowMapping (tag : Tag) (i : Nat) (first : Bool) (done : List (Nat × Nat)) {b : Builder}
    (h : b.IsFair) : Builds (flowMapping resolve bound tag i first done b)

namespace ReadsFairly

variable {resolve : Resolver} {bound : Nat} {b : Builder}

/-- A node is fair by the bound before: what is in it is read with that bound. -/
theorem node_succ (hr : ReadsFairly resolve bound) (position : Position) (h : b.IsFair) :
    Builds (Yaml.node resolve (bound + 1) position b) := by
  unfold Yaml.node
  refine h.token.bind fun token _ => ?_
  extract_lets fresh
  have hfresh (u : Unit) : Builds (fresh u) := by
    refine h.properties.bind fun ⟨anchor, tag, b⟩ h => ?_
    have hb : b.IsFair := h
    refine hb.token.bind fun token _ => ?_
    extract_lets named sequence mapping content
    -- What kind of content there is, is seen by the token; each kind is fair by the bound before.
    have hcontent (u : Unit) : Builds (content u) := by
      have hnamed : named.IsFair := hb.name anchor
      refine .ite (hr.indentless _ _ _ hnamed) ?_
      split
      · exact .ok hnamed
      · exact hr.flowSequence _ _ _ _ hnamed
      · exact hr.flowMapping _ _ _ _ hnamed
      · exact .ite .malformed (hr.blockSequence _ _ _ hnamed)
      · exact .ite .malformed (hr.blockMapping _ _ _ hnamed)
      · split
        · exact .malformed
        · exact .ok hnamed
        · exact .ok hnamed
    split
    · exact .ite .malformed (hcontent ())
    · exact hcontent ()
  split
  · split
    · exact .ok h
    · exact .malformed
  · exact hfresh ()

/-- The elements of an indented sequence are fair by the bound before. -/
theorem blockSequence_succ (hr : ReadsFairly resolve bound) (tag : Tag) (i : Nat)
    (done : List Nat) (h : b.IsFair) :
    Builds (Yaml.blockSequence resolve (bound + 1) tag i done b) := by
  unfold Yaml.blockSequence
  refine h.token.bind fun token _ => ?_
  split
  · have hskip : b.skip.IsFair := h
    refine hskip.token.bind fun next _ => .ite (hr.blockSequence _ _ _ hskip) ?_
    refine (hr.node _ hskip).bind ?_
    rintro ⟨k, b⟩ he
    exact hr.blockSequence _ _ _ he
  · exact .ok h
  · exact .malformed

/-- The elements of a sequence that is not indented are fair by the bound before. -/
theorem indentless_succ (hr : ReadsFairly resolve bound) (tag : Tag) (i : Nat)
    (done : List Nat) (h : b.IsFair) :
    Builds (Yaml.indentless resolve (bound + 1) tag i done b) := by
  unfold Yaml.indentless
  refine h.token.bind fun token _ => ?_
  split
  · have hskip : b.skip.IsFair := h
    refine hskip.token.bind fun next _ => .ite (hr.indentless _ _ _ hskip) ?_
    refine (hr.node _ hskip).bind ?_
    rintro ⟨k, b⟩ he
    exact hr.indentless _ _ _ he
  · exact .ok h

/-- A part of a collection is read, or is empty, and then the reading goes on. -/
theorem part_bind (hr : ReadsFairly resolve bound) (position : Position) (h : b.IsFair)
    (isMissing : Bool) {go : Nat × Builder → Except Failure (Nat × Builder)}
    (hgo : ∀ r, r.2.IsFair → Builds (go r)) :
    Builds (if isMissing then pure (b.empty resolve) >>= go
      else Yaml.node resolve bound position b >>= go) :=
  .ite (hgo _ h) ((hr.node position h).bind hgo)

/-- The entries of an indented mapping are fair by the bound before. -/
theorem blockMapping_succ (hr : ReadsFairly resolve bound) (tag : Tag) (i : Nat)
    (done : List (Nat × Nat)) (h : b.IsFair) :
    Builds (Yaml.blockMapping resolve (bound + 1) tag i done b) := by
  unfold Yaml.blockMapping
  refine h.token.bind fun token _ => ?_
  split
  · have hskip : b.skip.IsFair := h
    refine hskip.token.bind fun next _ => hr.part_bind _ hskip _ ?_
    rintro ⟨k, b⟩ hk
    have hk : b.IsFair := hk
    refine hk.token.bind fun token _ => ?_
    split
    · have hskip : b.skip.IsFair := hk
      refine hskip.token.bind fun next _ => hr.part_bind _ hskip _ ?_
      rintro ⟨v, b⟩ hv
      exact hr.blockMapping _ _ _ hv
    · exact hr.blockMapping _ _ _ hk
  · exact .ok h
  · exact .malformed

/-- Before a part of a flow collection that is not the first one there is a comma. -/
theorem comma_bind (h : b.IsFair) (first isComma : Bool)
    {go : Builder → Except Failure (Nat × Builder)} (hgo : ∀ b, b.IsFair → Builds (go b)) :
    Builds (if first then pure b >>= go
      else if isComma then pure b.skip >>= go else .error .malformed >>= go) :=
  .ite (hgo b h) (.ite (hgo b.skip h) .malformed)

/-- The value of an entry in a flow collection is read, or is empty. -/
theorem value_bind (hr : ReadsFairly resolve bound) (h : b.IsFair) (closing token : Token)
    {go : Nat × Builder → Except Failure (Nat × Builder)} (hgo : ∀ r, r.2.IsFair → Builds (go r)) :
    Builds (if token == .value then
        b.skip.token >>= fun next => b.skip.token >>= fun next' =>
          if next == .flowEntry || next' == closing then pure (b.skip.empty resolve) >>= go
          else Yaml.node resolve bound .flow b.skip >>= go
      else pure (b.empty resolve) >>= go) := by
  have hskip : b.skip.IsFair := h
  exact .ite (hskip.token.bind fun _ _ => hskip.token.bind fun _ _ => hr.part_bind _ hskip _ hgo)
    (hgo _ h)

/-- The elements of a sequence in brackets are fair by the bound before. -/
theorem flowSequence_succ (hr : ReadsFairly resolve bound) (tag : Tag) (i : Nat) (first : Bool)
    (done : List Nat) (h : b.IsFair) :
    Builds (Yaml.flowSequence resolve (bound + 1) tag i first done b) := by
  unfold Yaml.flowSequence
  refine h.token.bind fun token _ => .ite (.ok h) (comma_bind h _ _ fun b hb => ?_)
  refine hb.token.bind fun token _ => ?_
  split
  · have hkey : ((b.add (.mapping .map [])).2.skip).IsFair := hb
    refine hkey.token.bind fun next _ => hr.part_bind _ hkey _ ?_
    rintro ⟨k, b⟩ hk
    have hk : b.IsFair := hk
    refine hk.token.bind fun token _ => hr.value_bind hk .flowSequenceEnd token ?_
    rintro ⟨v, b⟩ hv
    exact hr.flowSequence _ _ _ _ hv
  · exact .ok hb
  · refine (hr.node _ hb).bind ?_
    rintro ⟨k, b⟩ he
    exact hr.flowSequence _ _ _ _ he

/-- The entries of a mapping in braces are fair by the bound before. -/
theorem flowMapping_succ (hr : ReadsFairly resolve bound) (tag : Tag) (i : Nat) (first : Bool)
    (done : List (Nat × Nat)) (h : b.IsFair) :
    Builds (Yaml.flowMapping resolve (bound + 1) tag i first done b) := by
  unfold Yaml.flowMapping
  refine h.token.bind fun token _ => .ite (.ok h) (comma_bind h _ _ fun b hb => ?_)
  refine hb.token.bind fun token _ => ?_
  split
  · have hkey : b.skip.IsFair := hb
    refine hkey.token.bind fun next _ => hr.part_bind _ hkey _ ?_
    rintro ⟨k, b⟩ hk
    have hk : b.IsFair := hk
    refine hk.token.bind fun token _ => hr.value_bind hk .flowMappingEnd token ?_
    rintro ⟨v, b⟩ hv
    exact hr.flowMapping _ _ _ _ hv
  · exact .ok hb
  · refine (hr.node _ hb).bind ?_
    rintro ⟨k, b⟩ he
    exact hr.flowMapping _ _ _ _ he

end ReadsFairly

/-- The reading of nodes is fair up to every bound. -/
theorem readsFairly (resolve : Resolver) (bound : Nat) : ReadsFairly resolve bound := by
  -- The six functions call each other, always with a smaller bound, so they are proved fair
  -- together.
  induction bound with
  | zero =>
    constructor <;> intros
    · rw [node]
      exact .malformed
    · rw [blockSequence]
      exact .malformed
    · rw [indentless]
      exact .malformed
    · rw [blockMapping]
      exact .malformed
    · rw [flowSequence]
      exact .malformed
    · rw [flowMapping]
      exact .malformed
  | succ bound ih =>
    exact
      { node := fun position _ h => ih.node_succ position h
        blockSequence := fun tag i done _ h => ih.blockSequence_succ tag i done h
        indentless := fun tag i done _ h => ih.indentless_succ tag i done h
        blockMapping := fun tag i done _ h => ih.blockMapping_succ tag i done h
        flowSequence := fun tag i first done _ h => ih.flowSequence_succ tag i first done h
        flowMapping := fun tag i first done _ h => ih.flowMapping_succ tag i first done h }

/-- The directives before a document are read fairly. -/
theorem fair_directives (tokens : List Token) (versioned : Bool) (handles : List (Text × Text)) :
    Fair (directives tokens versioned handles) := by
  fun_induction directives tokens versioned handles with
  | case1 => exact .malformed
  | case2 _ _ _ _ _ _ ih => exact ih
  | case3 => exact .malformed
  | case4 _ _ _ _ _ _ ih => exact ih
  | case5 _ _ _ ih => exact ih
  | case6 => exact .ok _

/-- The root of a document is read fairly, with a bound for the tokens that are left. -/
theorem Builder.IsFair.documentRoot {b : Builder} (h : b.IsFair) (resolve : Resolver) :
    Builds (documentRoot resolve b) :=
  h.token.bind fun _ _ => .ite (.ok h) ((readsFairly resolve _).node _ h)

/-- The check that nothing is left after a document is fair. -/
theorem Builder.IsFair.checkEnd {b : Builder} (h : b.IsFair) : Fair (checkEnd b) := by
  unfold Yaml.checkEnd
  split
  · exact .ok _
  · exact .error h
  · exact .malformed

/-- The graph of a text is read fairly. -/
theorem fair_graph? (resolve : Resolver) (t : Text) : Fair (graph? resolve t) := by
  unfold graph?
  split
  rename_i tokens failure htokens
  extract_lets b finish
  -- The failure of the tokens waits at their end, and it is fair since reading them was.
  have hb : b.IsFair := by
    cases failure with
    | none => exact Failure.isFair_malformed
    | some e => exact isFair_of_tokens (congrArg (·.2) htokens)
  have hfinish (r : Nat × Builder) (hr : r.2.IsFair) : Fair (finish r) :=
    hr.checkEnd.bind fun _ => .ok _
  have hmarked (b : Builder) (hb : b.IsFair) : Fair (b.token >>= fun token =>
      if token == .documentStart then documentRoot resolve b.skip >>= finish
      else .error .malformed) := by
    have hskip : b.skip.IsFair := hb
    exact hb.token.bind_fair fun _ _ =>
      .ite ((hskip.documentRoot resolve).bind_fair hfinish) .malformed
  refine hb.token.bind_fair fun token _ => ?_
  split
  · exact .ok _
  · exact (fair_directives _ _ _).bind fun ⟨_, _⟩ => hmarked _ hb
  · exact (fair_directives _ _ _).bind fun ⟨_, _⟩ => hmarked _ hb
  · exact ((readsFairly resolve _).node _ hb).bind_fair hfinish

/-! ## Scalars -/

namespace Scalar

/-- An operation on the text of a scalar fails with faults of scalars only. -/
def Fair (x : Attempt α) : Prop := ∀ f, x = .error f → f.IsOfScalar

namespace Fair

/-- A value is fair: it is no fault. -/
theorem ok (a : α) : Fair (.ok a) := Attempt.FailsOnly.ok a

/-- An operation that fails with the fault of a scalar is fair. -/
theorem error {f : Fault} (h : f.IsOfScalar) : Fair (.error f : Attempt α) :=
  Attempt.FailsOnly.error h

/-- A chain of fair operations is fair. -/
theorem bind {x : Attempt α} {g : α → Attempt β} (h : Fair x) (hg : ∀ a, Fair (g a)) :
    Fair (x >>= g) := Attempt.FailsOnly.bind h hg

/-- A choice between fair operations is fair. -/
theorem ite {c : Prop} [Decidable c] {x y : Attempt α} (hx : Fair x) (hy : Fair y) :
    Fair (if c then x else y) := Attempt.FailsOnly.ite hx hy

/-- A fair operation over a list is fair. -/
theorem mapM {g : α → Attempt β} (h : ∀ a, Fair (g a)) (xs : List α) : Fair (xs.mapM g) :=
  Attempt.FailsOnly.mapM h xs

end Fair

/-- An integer is read fairly: it can fail for a text that spells none, or for too many digits. -/
theorem fair_readInt (base : Nat) (t : Text) : Fair (Number.readInt base t) := by
  intro f hf
  rcases Number.of_readInt_error hf with ⟨shown, rfl⟩ | ⟨read, rfl⟩
  · exact .notInteger ..
  · exact .tooManyDigits _

/-- A floating point number is read fairly: what it can fail for is a text that spells none. -/
theorem fair_readReal (t : Text) : Fair (Number.readReal t) := by
  unfold Number.readReal
  dsimp only
  split
  · exact .error (.notReal _)
  · refine .ite (.ok _) (.ite (.ok _) ?_)
    split
    · exact .ok _
    · exact .error (.notReal _)

/-- The sign of a number is read fairly: what it can fail for is an empty text. -/
theorem fair_signed (t : Text) : Fair (signed t) := by
  unfold signed
  split
  · exact .error .emptyText
  · exact .ok _
  · exact .ok _
  · exact .ok _

/-- The integer of a text without sign is read fairly, in each notation. -/
theorem fair_magnitude (t : Text) : Fair (magnitude t) := by
  unfold magnitude
  refine .ite (.ok _) (.ite (fair_readInt _ _) (.ite (fair_readInt _ _) ?_))
  split
  · exact .error .emptyText
  · exact fair_readInt _ _
  · exact .ite (.bind (.mapM (fair_readInt 10) _) fun _ => .ok _) (fair_readInt _ _)

/-- The integer of a scalar is read fairly. -/
theorem fair_int (t : Text) : Fair (int t) :=
  (fair_signed t).bind fun _ => (fair_magnitude _).bind fun _ => .ok _

/-- Sixties are summed up fairly: an integer may be too large for a floating point number. -/
theorem fair_sixtiesSum (xs : List Binary64) (base : Int) (sum : Binary64) :
    Fair (sixtiesSum xs base sum) := by
  induction xs generalizing base sum with
  | nil => exact .ok _
  | cons x r ih =>
    rw [sixtiesSum]
    split
    · exact .error .integerToReal
    · exact ih _ _

/-- The floating point number of a scalar is read fairly. -/
theorem fair_float (t : Text) : Fair (float t) := by
  refine (fair_signed _).bind fun ⟨negative, t⟩ => ?_
  refine .ite (.ok _) (.ite (.ok _) (.ite ?_ ((fair_readReal _).bind fun _ => .ok _)))
  exact (Fair.mapM fair_readReal _).bind fun _ => (fair_sixtiesSum _ _ _).bind fun _ => .ok _

end Scalar

/-- An operation on the text of a scalar is fair as one of YAML. -/
theorem fair_value (tag : Tag) (t : Text) : Fair (Scalar.value tag t) := by
  unfold Scalar.value
  -- A scalar is made by its tag, and each tag has faults of its own.
  cases tag with
  | null => exact .ok _
  | str => exact .ok _
  | bool =>
    dsimp only
    split
    · exact .ok _
    · exact .error (Failure.isFair_fault (.keyMissing _))
  | int =>
    dsimp only
    split
    · exact .ok _
    · exact .error (Failure.isFair_fault (Scalar.fair_int t _ ‹_›))
  | float =>
    dsimp only
    split
    · exact .ok _
    · exact .error (Failure.isFair_fault (Scalar.fair_float t _ ‹_›))
  | binary =>
    refine .ite ?_ .malformed
    split
    · exact .ok _
    · exact .malformed
  | timestamp =>
    dsimp only
    split
    · exact .error (Failure.isFair_fault (.partMissing ..))
    · split
      · exact .ok _
      · exact .ok _
      · exact .error (Failure.isFair_fault (.calendar _))
  | _ => exact .malformed

/-! ## Values -/

namespace Loader

variable (l : Loader)

/-- Merging mappings is fair up to a bound. -/
theorem fair_flatten (bound : Nat) :
    (∀ l i, Fair (flatten bound l i)) ∧
    (∀ l i place merged, Fair (flattenFrom bound l i place merged)) ∧
    ∀ l items later, Fair (flattenAll bound l items later) := by
  -- The three call one another with a bound that is one less, so one induction carries them all.
  induction bound with
  | zero =>
    refine ⟨fun l i => ?_, fun l i place merged => ?_, fun l items later => ?_⟩
    · rw [flatten]
      exact .malformed
    · rw [flattenFrom]
      exact .malformed
    · rw [flattenAll]
      exact .malformed
  | succ bound ih =>
    obtain ⟨hflatten, hfrom, hall⟩ := ih
    refine ⟨fun l i => ?_, fun l i place merged => ?_, fun l items later => ?_⟩
    · rw [flatten]
      exact hfrom _ _ _ _
    · rw [flattenFrom]
      dsimp only
      split
      · exact .ok _
      · refine .ite ?_ (.ite (hfrom _ _ _ _) (hfrom _ _ _ _))
        split
        · exact (hflatten _ _).bind fun _ => hfrom _ _ _ _
        · exact (hall _ _ _).bind fun ⟨_, _⟩ => hfrom _ _ _ _
        · exact .malformed
    · unfold flattenAll
      split
      · exact .ok _
      · split
        · exact (hflatten _ _).bind fun _ => hall _ _ _
        · exact .malformed

/-- The text of a scalar node is had fairly. -/
theorem fair_scalarText (bound i : Nat) : Fair (l.scalarText bound i) := by
  induction bound generalizing i with
  | zero => exact .malformed
  | succ bound ih =>
    rw [scalarText]
    split
    · exact .ok _
    · exact .malformed
    · split
      · exact ih _
      · exact .malformed

/-- The value of a scalar node is had fairly. -/
theorem fair_scalarValue (i : Nat) : Fair (l.scalarValue i) := by
  refine (fair_scalarText l _ i).bind fun t => ?_
  split
  · exact fair_value _ _
  · exact .error (Failure.isFair_fault (.notText _))
  · exact fair_value _ _

/-- A node is met fairly. -/
theorem fair_meet (i : Nat) : Fair (l.meet i) := by
  unfold meet
  split
  · exact .ok _
  · split
    all_goals first
      | exact .ok _
      | exact .malformed
      | exact (fair_scalarValue l i).bind fun _ => .ok _

/-- The key that a node has become is had fairly. -/
theorem fair_keyOf (i : Nat) : Fair (l.keyOf i) := by
  unfold keyOf
  split
  · exact .ok _
  · exact .malformed

/-- The entries of a mapping are met fairly. -/
theorem fair_meetEntries (es : List (Nat × Nat)) (done : List (Value × Nat)) :
    Fair (l.meetEntries es done) := by
  induction es generalizing l done with
  | nil => exact .ok _
  | cons e r ih =>
    exact (fair_meet l _).bind fun _ => (fair_keyOf _ _).bind fun _ =>
      (fair_meet _ _).bind fun _ => ih _ _

/-- The pairs of a sequence are met fairly. -/
theorem fair_meetPairs (items : List Nat) (done : List (Nat × Nat)) :
    Fair (l.meetPairs items done) := by
  induction items generalizing l done with
  | nil => exact .ok _
  | cons i r ih =>
    rw [meetPairs]
    split
    · exact (fair_meet l _).bind fun _ => (fair_meet _ _).bind fun _ => ih _ _
    · exact .malformed

/-- The entries of a mapping are filled in fairly, merged ones included. -/
theorem fair_fillEntries (i : Nat) : Fair (l.fillEntries i) := by
  unfold fillEntries
  split
  · exact .malformed
  · exact ((fair_flatten _).1 l i).bind fun _ => fair_meetEntries _ _ _

/-- A collection is filled fairly. -/
theorem fair_fill (i : Nat) : Fair (l.fill i) := by
  unfold fill
  split
  · exact (Fair.foldlM fair_meet _ l).bind fun _ => .ok _
  · exact (fair_fillEntries l i).bind fun _ => .ok _
  · exact (fair_fillEntries l i).bind fun _ => .ok _
  · exact (fair_meetPairs l _ _).bind fun _ => .ok _
  · exact (fair_meetPairs l _ _).bind fun _ => .ok _
  · exact .malformed

/-- All collections are filled fairly, round by round. -/
theorem fair_fillAll (bound : Nat) : Fair (fillAll bound l) := by
  induction bound generalizing l with
  | zero => exact .ok _
  | succ bound ih =>
    unfold fillAll
    split
    · exact .ok _
    · exact (Fair.foldlM fair_fill _ _).bind ih

end Loader

/-- A text is read fairly. -/
theorem fair_load (t : Text) : Fair (load t) := by
  refine (fair_graph? _ t).bind fun graph? => ?_
  split
  · exact .ok _
  · exact (Loader.fair_meet _ _).bind fun _ => (Loader.fair_fillAll _ _).bind fun _ => .ok _

/-- A text that is YAML but has no value has a scalar that has none. -/
theorem isOfScalar_of_load {t : Text} {f : Fault} (h : load t = .error (.fault f)) :
    f.IsOfScalar := fair_load t _ h f rfl

end Yaml

end SurfaceAudit
