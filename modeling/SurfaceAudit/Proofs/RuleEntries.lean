import SurfaceAudit.Proofs.Steps
import SurfaceAudit.Rules.Loader

/-!
# How entries of rule files are read

Reading an entry only adds to the store: defects, and the rule that the entry describes. What it
adds does not depend on what is there (`RuleStore.Loading.Yields`), so a step of the loading is told
by its outcome and its additions. An entry is flawed, or it describes one rule; but a few values
stop the reading of rules with a fault, which nothing notes. `CommandRule.Stops` and
`SignalRule.Stops` list them, and an entry is read to its end exactly if none of them applies
(`reads_commandRule?`, `reads_signalRule?`).
-/

namespace SurfaceAudit

/-- The defect is one of two rules with the same priority, and not of a file or an entry. -/
def RuleDefect.isClash : RuleDefect → Bool
  | .samePriority .. => true
  | _ => false

namespace Template

/-- A template is found by its name, and by no other text. -/
theorem ofText?_eq_some_iff {t : Text} {template : Template} :
    ofText? t = some template ↔ t = template.name := by
  constructor
  · intro h
    have hname := List.find?_some h
    exact (beq_iff_eq.mp hname).symm
  · rintro rfl
    cases template <;> decide

/-- The name of a template tells which it is. -/
theorem name_injective {a b : Template} (h : a.name = b.name) : a = b :=
  Option.some.inj ((ofText?_eq_some_iff.mpr rfl).symm.trans (ofText?_eq_some_iff.mpr h))

end Template

/-! ## What is added to a store -/

namespace RuleStore

/-- What the reading of a file adds to a store. -/
inductive Addition where
  /-- A defect is noted. -/
  | defect (d : RuleDefect)
  /-- A rule for commands comes after those that were read. -/
  | command (rule : CommandRule)
  /-- An entry of a table takes the place of one with its name, which is noted then. -/
  | entry (t : TableName) (name : Text) (rule : SignalRule)

/-- The addition is a note on a defect of a file or an entry. -/
def Addition.IsNote : Addition → Prop
  | .defect d => d.isClash = false
  | _ => False

/-- The store with something added. -/
def add (s : RuleStore) : Addition → RuleStore
  | .defect d => { s with defects := s.defects ++ [d] }
  | .command rule => { s with pending.commands := s.pending.commands ++ [rule] }
  | .entry t name rule =>
    { s with
      pending := t.modify (·.put name rule) s.pending
      defects := if ((t.of s.pending).get? name).isSome then
        s.defects ++ [.duplicate name t.name] else s.defects }

namespace Loading

variable {α β : Type}

/-- A step comes to an outcome and adds something, whatever is in the store. -/
def Yields (step : Loading α) (outcome : Attempt α) (added : List Addition) : Prop :=
  ∀ s : RuleStore, step.run.run s = (outcome, added.foldl RuleStore.add s)

/-- A chain of two steps goes on with the value and the store of the first. -/
theorem run_bind (step : Loading α) (k : α → Loading β) (s : RuleStore) :
    (step >>= k).run.run s =
      match step.run.run s with
      | (.ok a, s') => (k a).run.run s'
      | (.error f, s') => (.error f, s') := by
  rw [ExceptT.run_bind, StateT.run_bind]
  rcases step.run.run s with ⟨f | a, s'⟩
  · rfl
  · rfl

/-- A value alone adds nothing. -/
theorem Yields.pure (a : α) : (pure a : Loading α).Yields (.ok a) [] := fun _ => rfl

/-- A fault adds nothing. -/
theorem Yields.throw (f : Fault) : (throw f : Loading α).Yields (.error f) [] := fun _ => rfl

/-- An operation comes to its own outcome and adds nothing. -/
theorem Yields.ofAttempt (a : Attempt α) : (ofAttempt a).Yields a [] := fun _ => rfl

/-- A note adds a defect. -/
theorem Yields.note (d : RuleDefect) : (note d).Yields (.ok ()) [.defect d] := fun _ => rfl

/-- A chain of two steps adds what the first adds, and then what the second adds. -/
theorem Yields.bind {step : Loading α} {k : α → Loading β} {a : α} {outcome : Attempt β}
    {first second : List Addition} (h : step.Yields (.ok a) first)
    (hk : (k a).Yields outcome second) : (step >>= k).Yields outcome (first ++ second) := by
  intro s
  rw [run_bind, h s, List.foldl_append]
  exact hk _

/-- After a fault, nothing is added. -/
theorem Yields.bind_error {step : Loading α} {f : Fault} {added : List Addition}
    (h : step.Yields (.error f) added) (k : α → Loading β) :
    (step >>= k).Yields (.error f) added := by
  intro s
  rw [run_bind, h s]

/-- A step has one outcome. -/
theorem Yields.outcome_eq {step : Loading α} {o o' : Attempt α} {added added' : List Addition}
    (h : step.Yields o added) (h' : step.Yields o' added') : o = o' :=
  congrArg Prod.fst ((h { directory := [] }).symm.trans (h' { directory := [] }))

/-- How a step of the reading ends, with what it adds: with a fault that stops it or, if nothing
does, with what is right. -/
inductive Ends (stops : Fault → Prop) (right : α → List Addition → Prop) :
    Attempt α → List Addition → Prop where
  /-- There is a fault. -/
  | fault {f : Fault} {added : List Addition} (h : stops f) : Ends stops right (.error f) added
  /-- Nothing stops the reading. -/
  | value {a : α} {added : List Addition} (hs : ∀ f, ¬stops f) (h : right a added) :
    Ends stops right (.ok a) added

/-- A step ends with a fault that is among those that stop it or, if none of them does, with what is
right; whatever is in the store, it only adds to it. -/
def Reads (step : Loading α) (stops : Fault → Prop) (right : α → List Addition → Prop) : Prop :=
  ∃ outcome added, step.Yields outcome added ∧ Ends stops right outcome added

variable {stops : Fault → Prop} {right : β → List Addition → Prop}

/-- A step that gives a value that is right by itself reads it, if nothing stops it. -/
theorem Reads.pure {b : β} (hs : ∀ f, ¬stops f) (hr : right b []) :
    (pure b : Loading β).Reads stops right :=
  ⟨.ok b, [], Yields.pure b, .value hs hr⟩

/-- A step may end with a fault that is among those that stop it. -/
theorem Reads.throw {f : Fault} (h : stops f) : (throw f : Loading β).Reads stops right :=
  ⟨.error f, [], Yields.throw f, .fault h⟩

/-- A step goes on after additions that were made before it. -/
theorem Reads.after {step : Loading α} {k : α → Loading β} {a : α} {first : List Addition}
    (h : step.Yields (.ok a) first)
    (hk : (k a).Reads stops fun b second => right b (first ++ second)) :
    (step >>= k).Reads stops right := by
  obtain ⟨outcome, second, hy, hend⟩ := hk
  refine ⟨outcome, first ++ second, h.bind hy, ?_⟩
  cases hend with
  | fault h => exact .fault h
  | value hs h => exact .value hs h

/-- A chain of two steps reads if both do, where a fault of either stops the whole. -/
theorem Reads.bind {step : Loading α} {k : α → Loading β} {stopsFirst : Fault → Prop}
    {rightFirst : α → List Addition → Prop} (h : step.Reads stopsFirst rightFirst)
    (hs : ∀ f, stopsFirst f → stops f)
    (hk : ∀ a first, (∀ f, ¬stopsFirst f) → rightFirst a first →
      (k a).Reads stops fun b second => right b (first ++ second)) :
    (step >>= k).Reads stops right := by
  obtain ⟨outcome, first, hy, hend⟩ := h
  cases hend with
  | @fault f _ h => exact ⟨.error f, first, hy.bind_error k, .fault (hs f h)⟩
  | @value a _ hstops h => exact .after hy (hk a first hstops h)

/-- An operation that adds nothing, and what follows it. -/
theorem Reads.ofAttempt_bind {x : Attempt α} {k : α → Loading β}
    (hf : ∀ f, x = .error f → stops f) (hk : ∀ a, x = .ok a → (k a).Reads stops right) :
    (ofAttempt x >>= k).Reads stops right := by
  cases x with
  | error f => exact ⟨.error f, [], (Yields.ofAttempt _).bind_error k, .fault (hf f rfl)⟩
  | ok a => exact .after (Yields.ofAttempt _) (hk a rfl)

/-- A defect that is noted, and what follows it. -/
theorem Reads.note_bind {d : RuleDefect} {k : Unit → Loading β}
    (hk : (k ()).Reads stops fun b added => right b (.defect d :: added)) :
    (note d >>= k).Reads stops right :=
  .after (Yields.note d) hk

/-- An entry that is refused gives nothing, and its defect is noted. -/
theorem Reads.refuse {right : Option β → List Addition → Prop} {d : RuleDefect}
    (hs : ∀ f, ¬stops f) (hr : right none [.defect d]) :
    (refuse d : Loading (Option β)).Reads stops right :=
  .note_bind (.pure hs hr)

end Loading

end RuleStore

/-! ## Flags and templates -/

namespace Value

/-- The value names a template. -/
def NamesTemplate (v : Value) : Prop := ∃ template : Template, v = .text template.name

/-- What stops the reading of an impact: a value that cannot be a key, or one that names no template
and cannot be shown. -/
def StopsImpact (v : Value) (f : Fault) : Prop :=
  v.asKey = .error f ∨ (¬v.NamesTemplate ∧ v.shown = .error f)

/-- The flag of a pattern that a value names. -/
def flag? (v : Value) : Option Pattern.Flag :=
  [(("IGNORECASE" : Text), Pattern.Flag.ignoreCase), ("MULTILINE", .multiLine),
    ("DOTALL", .dotAll)].findSome? fun (name, flag) => if v.isText name then some flag else none

/-- The flags that values name, in addition to some. -/
def flagsOf : List Value → Pattern.Flags → Pattern.Flags
  | [], done => done
  | v :: r, done =>
    match v.flag? with
    | some f => flagsOf r (if done.contains f then done else f :: done)
    | none => flagsOf r done

/-- What stops the reading of flags: a value without elements, or an element that cannot be a key,
or one that names no flag and cannot be shown. -/
def StopsFlags (v : Value) (f : Fault) : Prop :=
  v.elementsIfTrue = .error f ∨ ∃ names, v.elementsIfTrue = .ok names ∧
    ∃ x ∈ names, x.asKey = .error f ∨ (x.flag? = none ∧ x.shown = .error f)

end Value

namespace RuleStore.Loading

/-- A text can be a key. -/
theorem asKey_eq_ok {v k : Value} (h : v.asKey = .ok k) : k = v := by
  unfold Value.asKey at h
  split at h <;> cases h
  rfl

/-- A value is read as the template that it names. -/
theorem reads_template? (v : Value) :
    (template? v).Reads (fun f => v.asKey = .error f) fun o added =>
      added = [] ∧ ∀ template, o = some template ↔ v = .text template.name := by
  refine .ofAttempt_bind (fun f h => h) fun key hkey => ?_
  cases asKey_eq_ok hkey
  refine .pure (fun f h => ?_) ⟨rfl, fun template => ?_⟩
  · rw [hkey] at h
    cases h
  · cases v with
    | text t => simpa [Value.text?] using Template.ofText?_eq_some_iff
    | _ => simp [Value.text?]

/-- A value is read as the flag that it names. -/
theorem reads_flag? (v : Value) :
    (flag? v).Reads (fun f => v.asKey = .error f) fun o added => added = [] ∧ o = v.flag? := by
  refine .ofAttempt_bind (fun f h => h) fun key hkey => ?_
  cases asKey_eq_ok hkey
  refine .pure (fun f h => ?_) ⟨rfl, rfl⟩
  rw [hkey] at h
  cases h

/-- Values are read as the flags that they name, and the others are noted. -/
theorem reads_flags (signal : Text) (names : List Value) (done : Pattern.Flags) :
    (flags signal names done).Reads
      (fun f => ∃ x ∈ names, x.asKey = .error f ∨ (x.flag? = none ∧ x.shown = .error f))
      fun o added => o = Value.flagsOf names done ∧ ∀ a ∈ added, a.IsNote := by
  induction names generalizing done with
  | nil => exact .pure (by simp) ⟨rfl, by simp⟩
  | cons x r ih =>
    unfold flags
    refine (reads_flag? x).bind (fun f h => ⟨x, List.mem_cons_self, .inl h⟩) ?_
    rintro o added hkey ⟨rfl, rfl⟩
    rw [Value.flagsOf]
    -- What stops the reading of the others stops the whole, and nothing else is left to do so.
    have hrest {flag? : Option Pattern.Flag} (hflag : x.flag? = flag?)
        (hshown : flag? = none → ∀ f, x.shown ≠ .error f) (f : Fault) :
        (∃ y ∈ x :: r, y.asKey = .error f ∨ (y.flag? = none ∧ y.shown = .error f)) ↔
          ∃ y ∈ r, y.asKey = .error f ∨ (y.flag? = none ∧ y.shown = .error f) := by
      rw [List.exists_mem_cons_iff]
      refine or_iff_right ?_
      rintro (h | ⟨h, hx⟩)
      · exact hkey f h
      · exact hshown (hflag.symm.trans h) f hx
    cases hflag : x.flag? with
    | some flag =>
      simp only [hrest hflag (by simp)]
      exact ih _
    | none =>
      refine .ofAttempt_bind (fun f h => ⟨x, List.mem_cons_self, .inr ⟨hflag, h⟩⟩) fun t ht => ?_
      simp only [hrest hflag fun _ f h => by rw [ht] at h; cases h]
      refine .note_bind ?_
      simpa [Addition.IsNote, RuleDefect.isClash] using ih done

end RuleStore.Loading

/-! ## Rules for commands -/

namespace CommandRule

/-- The entries of a mapping describe a rule for commands. -/
structure IsDescribedBy (rule : CommandRule) (es : List (Value × Value)) : Prop where
  /-- The priority is an integer. -/
  priority : Value.field es "priority" = .int rule.priority
  /-- The signal is the text of the value for it. -/
  signal : ∃ v, Value.lookup es "signal" = some v ∧ v.shown = .ok rule.signal
  /-- The impact is the name of a template. -/
  impact : Value.field es "impact" = .text rule.template.name
  /-- The pattern is the text of the value for it. -/
  pattern : ∃ v, Value.lookup es "pattern" = some v ∧ v.shown = .ok rule.pattern
  /-- The pattern is not too long. -/
  length : rule.pattern.length ≤ RuleDefect.patternLimit
  /-- The pattern is well formed under the flags that are named. -/
  expr : ∃ names, (Value.field es "pattern_flags").elementsIfTrue = .ok names ∧
    Pattern.Expr.parse (Value.flagsOf names []) rule.pattern = .ok rule.expr

/-- A mapping describes one rule for commands. -/
theorem IsDescribedBy.unique {es : List (Value × Value)} {rule rule' : CommandRule}
    (h : rule.IsDescribedBy es) (h' : rule'.IsDescribedBy es) : rule = rule' := by
  -- Each part of the rule is told by a value of the mapping; the expression, by the pattern.
  have hpriority : rule.priority = rule'.priority := by
    simpa using h.priority.symm.trans h'.priority
  have htemplate : rule.template = rule'.template := by
    refine Template.name_injective ?_
    simpa using h.impact.symm.trans h'.impact
  have hsignal : rule.signal = rule'.signal := by
    obtain ⟨v, hv, hs⟩ := h.signal
    obtain ⟨v', hv', hs'⟩ := h'.signal
    cases hv.symm.trans hv'
    simpa using hs.symm.trans hs'
  have hpattern : rule.pattern = rule'.pattern := by
    obtain ⟨v, hv, hp⟩ := h.pattern
    obtain ⟨v', hv', hp'⟩ := h'.pattern
    cases hv.symm.trans hv'
    simpa using hp.symm.trans hp'
  have hexpr : rule.expr = rule'.expr := by
    obtain ⟨names, hn, he⟩ := h.expr
    obtain ⟨names', hn', he'⟩ := h'.expr
    cases hn.symm.trans hn'
    rw [hpattern] at he
    simpa using he.symm.trans he'
  cases rule
  cases rule'
  simp_all

/-- A value has a flaw, so that it describes no rule for commands. -/
inductive IsFlawed (v : Value) : Prop where
  /-- The value is no mapping. -/
  | shape (h : v.entries? = none)
  /-- A field is missing. -/
  | field {es : List (Value × Value)} {name : Text} (hv : v.entries? = some es)
    (hn : name ∈ RuleStore.Loading.requiredFields) (h : Value.lookup es name = none)
  /-- The priority is no integer. -/
  | priority {es : List (Value × Value)} (hv : v.entries? = some es)
    (h : ∀ n, Value.field es "priority" ≠ .int n)
  /-- The impact is not the name of a template. -/
  | impact {es : List (Value × Value)} (hv : v.entries? = some es)
    (h : ¬(Value.field es "impact").NamesTemplate)
  /-- The pattern is too long. -/
  | length {es : List (Value × Value)} {text : Text} (hv : v.entries? = some es)
    (ht : (Value.field es "pattern").shown = .ok text) (h : RuleDefect.patternLimit < text.length)
  /-- The pattern is not well formed. -/
  | pattern {es : List (Value × Value)} {text : Text} {names : List Value} {d : Pattern.Defect}
    (hv : v.entries? = some es) (ht : (Value.field es "pattern").shown = .ok text)
    (hn : (Value.field es "pattern_flags").elementsIfTrue = .ok names)
    (h : Pattern.Expr.parse (Value.flagsOf names []) text = .error (.defect d))

/-- The fields of a rule for commands that are read before the pattern are right. -/
structure HasHead (es : List (Value × Value)) : Prop where
  /-- The priority is an integer. -/
  priority : ∃ n, Value.field es "priority" = .int n
  /-- The impact is the name of a template. -/
  impact : (Value.field es "impact").NamesTemplate

/-- What stops the reading of a mapping with all fields as a rule for commands, and with which
fault. -/
inductive Stops (es : List (Value × Value)) : Fault → Prop where
  /-- The signal cannot be shown. -/
  | signal {f : Fault} (h : (Value.field es "signal").shown = .error f) : Stops es f
  /-- The impact cannot be a key, or names no template and cannot be shown. -/
  | impact {n : Int} {f : Fault} (hp : Value.field es "priority" = .int n)
    (h : (Value.field es "impact").StopsImpact f) : Stops es f
  /-- The pattern cannot be shown. -/
  | pattern {f : Fault} (hh : HasHead es) (h : (Value.field es "pattern").shown = .error f) :
    Stops es f
  /-- The flags have no elements, or an element that cannot be a flag. -/
  | flags {text : Text} {f : Fault} (hh : HasHead es)
    (ht : (Value.field es "pattern").shown = .ok text)
    (hl : text.length ≤ RuleDefect.patternLimit)
    (h : (Value.field es "pattern_flags").StopsFlags f) : Stops es f
  /-- The pattern has a number beyond all bounds, or flags that exclude each other. -/
  | expr {text : Text} {names : List Value} {f : Fault} (hh : HasHead es)
    (ht : (Value.field es "pattern").shown = .ok text)
    (hl : text.length ≤ RuleDefect.patternLimit)
    (hn : (Value.field es "pattern_flags").elementsIfTrue = .ok names)
    (h : Pattern.Expr.parse (Value.flagsOf names []) text = .error (.fault f)) : Stops es f

/-- What stops the reading of a value as a rule for commands. -/
def StopsValue (v : Value) (f : Fault) : Prop :=
  ∃ es, v.entries? = some es ∧
    (∀ name ∈ RuleStore.Loading.requiredFields, Value.lookup es name ≠ none) ∧ Stops es f

end CommandRule

namespace RuleStore.Loading

/-- What is decided of an entry, where only notes are taken: it is flawed, and a defect was noted,
or it describes something. -/
inductive Decides {α : Type} (flawed : Prop) (describes : α → Prop) :
    Option α → List Addition → Prop where
  /-- The entry is flawed. -/
  | flawed {notes : List Addition} (hn : ∀ a ∈ notes, a.IsNote) (hne : notes ≠ []) (h : flawed) :
    Decides flawed describes none notes
  /-- The entry describes something. -/
  | describes {notes : List Addition} {a : α} (hn : ∀ a ∈ notes, a.IsNote) (h : describes a) :
    Decides flawed describes (some a) notes

/-- An entry is flawed once a defect is noted, after other notes. -/
theorem Decides.concat {α : Type} {flawed : Prop} {describes : α → Prop} {notes : List Addition}
    (hn : ∀ a ∈ notes, a.IsNote) {d : RuleDefect} (hd : d.isClash = false) (h : flawed) :
    Decides flawed describes none (notes ++ [.defect d]) :=
  .flawed (List.forall_mem_append.mpr ⟨hn, List.forall_mem_singleton.mpr hd⟩) (by simp) h

/-- An entry is flawed once a defect is noted. -/
theorem Decides.single {α : Type} {flawed : Prop} {describes : α → Prop} {d : RuleDefect}
    (hd : d.isClash = false) (h : flawed) : Decides flawed describes none [.defect d] :=
  .flawed (List.forall_mem_singleton.mpr (show (Addition.defect d).IsNote from hd)) (by simp) h

open CommandRule

/-- What names a template stops nothing. -/
theorem not_stopsImpact {v : Value} (h : v.NamesTemplate) (f : Fault) : ¬v.StopsImpact f := by
  rintro (hkey | ⟨hnot, -⟩)
  · obtain ⟨template, rfl⟩ := h
    cases hkey
  · exact hnot h

/-- An entry goes on with the template that its impact names, or else it is refused, if the impact
stops nothing. -/
theorem Reads.impact_bind {β : Type} {v : Value} {d : Text → RuleDefect}
    {k : Option Template → Loading (Option β)} {stops : Fault → Prop}
    {right : Option β → List Addition → Prop}
    (hnone : k none = ofAttempt v.shown >>= fun shown => Loading.refuse (d shown))
    (hs : ∀ f, v.StopsImpact f → stops f)
    (hrefused : ¬v.NamesTemplate → (∀ f, ¬v.StopsImpact f) → ∀ f, ¬stops f)
    (hflawed : ¬v.NamesTemplate → ∀ shown, right none [.defect (d shown)])
    (hsome : ∀ template, v = .text template.name → (k (some template)).Reads stops right) :
    (template? v >>= k).Reads stops right := by
  refine (reads_template? v).bind (fun f h => hs f (.inl h)) ?_
  rintro template? - hkey ⟨rfl, htemplate⟩
  cases template? with
  | some template => exact hsome template ((htemplate template).mp rfl)
  | none =>
    have hnames : ¬v.NamesTemplate := by
      rintro ⟨template, h⟩
      cases (htemplate template).mpr h
    rw [hnone]
    refine .ofAttempt_bind (fun f h => hs f (.inr ⟨hnames, h⟩)) fun shown hshown => ?_
    have hstops (f : Fault) : ¬v.StopsImpact f := by
      rintro (h | ⟨-, h⟩)
      · exact hkey f h
      · cases hshown.symm.trans h
    exact .refuse (hrefused hnames hstops) (hflawed hnames shown)

/-- The pattern of a rule whose other fields are right is read as it is described. -/
theorem reads_pattern? {v : Value} {es : List (Value × Value)} {signal : Text}
    (hv : v.entries? = some es) (hsignal : (Value.field es "signal").shown = .ok signal)
    (hh : HasHead es) :
    (pattern? signal es).Reads (Stops es) (Decides (IsFlawed v) fun pattern =>
      (Value.field es "pattern").shown = .ok pattern.1 ∧
        pattern.1.length ≤ RuleDefect.patternLimit ∧
        ∃ names, (Value.field es "pattern_flags").elementsIfTrue = .ok names ∧
          Pattern.Expr.parse (Value.flagsOf names []) pattern.1 = .ok pattern.2) := by
  unfold pattern?
  refine .ofAttempt_bind (fun f h => .pattern hh h) fun text htext => ?_
  -- Of what stops a rule, only what comes after the text of the pattern is left.
  have hleft {f : Fault} (h : Stops es f) : text.length ≤ RuleDefect.patternLimit ∧
      ((Value.field es "pattern_flags").StopsFlags f ∨
        ∃ names, (Value.field es "pattern_flags").elementsIfTrue = .ok names ∧
          Pattern.Expr.parse (Value.flagsOf names []) text = .error (.fault f)) := by
    cases h with
    | signal h => cases hsignal.symm.trans h
    | impact _ h => exact absurd h (not_stopsImpact hh.impact f)
    | pattern _ h => cases htext.symm.trans h
    | flags _ ht hl h =>
      cases htext.symm.trans ht
      exact ⟨hl, .inl h⟩
    | expr _ ht hl hn h =>
      cases htext.symm.trans ht
      exact ⟨hl, .inr ⟨_, hn, h⟩⟩
  split
  · rename_i hlong
    have hnone (f : Fault) : ¬Stops es f := fun h => absurd (hleft h).1 (Nat.not_le.mpr hlong)
    exact .refuse hnone (.single rfl (.length hv htext hlong))
  · rename_i hshort
    have hshort := Nat.not_lt.mp hshort
    refine .ofAttempt_bind (fun f h => .flags hh htext hshort (.inl h)) fun names hnames => ?_
    refine (reads_flags signal names []).bind
      (fun f h => .flags hh htext hshort (.inr ⟨names, hnames, h⟩)) ?_
    rintro flags first hflags ⟨rfl, hnotes⟩
    -- The flags stop nothing, so that the pattern itself is all that is left.
    have hparse {f : Fault} (h : Stops es f) :
        Pattern.Expr.parse (Value.flagsOf names []) text = .error (.fault f) := by
      rcases (hleft h).2 with (h | ⟨names', hn, h⟩) | ⟨names', hn, h⟩
      · cases hnames.symm.trans h
      · cases hnames.symm.trans hn
        exact absurd h (hflags f)
      · cases hnames.symm.trans hn
        exact h
    split
    · rename_i e he
      have hnone (f : Fault) : ¬Stops es f := fun h => by cases he.symm.trans (hparse h)
      refine .pure hnone (.describes ?_ ⟨htext, hshort, names, hnames, he⟩)
      rwa [List.append_nil]
    · rename_i d he
      have hnone (f : Fault) : ¬Stops es f := fun h => by cases he.symm.trans (hparse h)
      exact .refuse hnone (.concat hnotes rfl (.pattern hv htext hnames he))
    · rename_i f he
      exact .throw (.expr hh htext hshort hnames he)

/-- A field that is there is the value under its name. -/
theorem lookup_of_ne_none {es : List (Value × Value)} {name : Text}
    (h : Value.lookup es name ≠ none) : Value.lookup es name = some (Value.field es name) := by
  obtain ⟨v, hv⟩ := Option.ne_none_iff_exists'.mp h
  rw [Value.field, hv, Option.getD_some]

/-- A mapping with all fields is read as the rule that it describes. -/
theorem reads_rule? {v : Value} {es : List (Value × Value)} (hv : v.entries? = some es)
    (hall : ∀ name ∈ requiredFields, Value.lookup es name ≠ none) :
    (rule? es).Reads (Stops es) (Decides (IsFlawed v) (IsDescribedBy · es)) := by
  unfold rule?
  refine .ofAttempt_bind (fun f h => .signal h) fun signal hsignal => ?_
  -- The fields are read in turn, and what comes after a field that is refused stops nothing.
  split
  · rename_i priority hpriority
    refine .impact_bind rfl (fun f h => .impact hpriority h) (fun hnames hstops f h => ?_)
      (fun hnames shown => ?_) fun template himpact => ?_
    · cases h with
      | signal h => cases hsignal.symm.trans h
      | impact _ h => exact hstops f h
      | pattern hh _ | flags hh _ _ _ | expr hh _ _ _ _ => exact hnames hh.impact
    · exact .single rfl (.impact hv hnames)
    · have hh : HasHead es := ⟨⟨priority, hpriority⟩, template, himpact⟩
      refine (reads_pattern? hv hsignal hh).bind (fun f h => h) ?_
      intro pattern? first hnone hpattern
      cases hpattern with
      | flawed hn hne h => exact .pure hnone (by simpa using .flawed hn hne h)
      | describes hn h =>
        obtain ⟨htext, hlength, hexpr⟩ := h
        refine .pure hnone (.describes (by simpa using hn) ?_)
        exact
          { priority := hpriority
            signal := ⟨_, lookup_of_ne_none (hall "signal" (by decide)), hsignal⟩
            impact := himpact
            pattern := ⟨_, lookup_of_ne_none (hall "pattern" (by decide)), htext⟩
            length := hlength
            expr := hexpr }
  · rename_i hpriority
    refine .refuse (fun f h => ?_) (.single rfl (.priority hv hpriority))
    cases h with
    | signal h => cases hsignal.symm.trans h
    | impact hp _ => exact hpriority _ hp
    | pattern hh _ | flags hh _ _ _ | expr hh _ _ _ _ =>
      obtain ⟨n, hn⟩ := hh.priority
      exact hpriority n hn

/-- A value is read as the rule for commands that it describes. -/
theorem reads_commandRule? (path : Text) (v : Value) :
    (commandRule? path v).Reads (StopsValue v) (Decides (IsFlawed v) fun rule =>
      ∃ es, v.entries? = some es ∧ rule.IsDescribedBy es) := by
  unfold commandRule?
  cases hv : v.entries? with
  | none =>
    refine .refuse ?_ (.single rfl (.shape hv))
    rintro f ⟨es, hes, -⟩
    cases hv.symm.trans hes
  | some es =>
    dsimp only
    -- Only the first field that is missing is noted.
    cases hmissing : requiredFields.find? fun f => (Value.lookup es f).isNone with
    | some name =>
      have hname : Value.lookup es name = none := by
        simpa using List.find?_some hmissing
      have hrequired := List.mem_of_find?_eq_some hmissing
      refine .refuse ?_ (.single rfl (.field hv hrequired hname))
      rintro f ⟨es', hes, hall, -⟩
      cases hv.symm.trans hes
      exact hall name hrequired hname
    | none =>
      have hall : ∀ name ∈ requiredFields, Value.lookup es name ≠ none := by
        simpa using hmissing
      have hstops (f : Fault) : StopsValue v f ↔ Stops es f := by
        constructor
        · rintro ⟨es', hes, -, h⟩
          cases hv.symm.trans hes
          exact h
        · exact fun h => ⟨es, hv, hall, h⟩
      obtain ⟨outcome, added, hy, hend⟩ := reads_rule? hv hall
      refine ⟨outcome, added, hy, ?_⟩
      cases hend with
      | fault h => exact .fault ((hstops _).mpr h)
      | value hnone h =>
        refine .value (fun f h => hnone f ((hstops f).mp h)) ?_
        cases h with
        | flawed hn hne h => exact .flawed hn hne h
        | describes hn h => exact .describes hn ⟨es, rfl, h⟩

end RuleStore.Loading

/-! ## Entries of tables -/

namespace SignalRule

/-- The entries of a mapping describe the entry of a table under a name. -/
structure IsDescribedBy (rule : SignalRule) (t : TableName) (name : Text)
    (es : List (Value × Value)) : Prop where
  /-- The impact is the name of a template. -/
  impact : Value.field es "impact" = .text rule.template.name
  /-- The signal is the text of the value for it; in a table without signals, it is the name. -/
  signal : match t.signalField? with
    | none => rule.signal = name
    | some field => ∃ v, Value.lookup es field = some v ∧ v.shown = .ok rule.signal

/-- A value has a flaw, so that it describes no entry of a table. -/
inductive IsFlawed (t : TableName) (v : Value) : Prop where
  /-- The value is no mapping. -/
  | shape (h : v.entries? = none)
  /-- The impact is not the name of a template. -/
  | impact {es : List (Value × Value)} (hv : v.entries? = some es)
    (h : ¬(Value.field es "impact").NamesTemplate)
  /-- The signal is missing. -/
  | signal {es : List (Value × Value)} {field : Text} (hv : v.entries? = some es)
    (hf : t.signalField? = some field) (h : Value.lookup es field = none)

/-- What stops the reading of a value as the entry of a table, and with which fault. -/
inductive Stops (t : TableName) (v : Value) : Fault → Prop where
  /-- The impact cannot be a key, or names no template and cannot be shown. -/
  | impact {es : List (Value × Value)} {f : Fault} (hv : v.entries? = some es)
    (h : (Value.field es "impact").StopsImpact f) : Stops t v f
  /-- The signal cannot be shown. -/
  | signal {es : List (Value × Value)} {field : Text} {x : Value} {f : Fault}
    (hv : v.entries? = some es) (hi : (Value.field es "impact").NamesTemplate)
    (hf : t.signalField? = some field) (hx : Value.lookup es field = some x)
    (h : x.shown = .error f) : Stops t v f

end SignalRule

namespace RuleStore.Loading

open SignalRule

/-- The signal of an entry whose impact is right is read as it is described. -/
theorem reads_signal? {t : TableName} (name : Text) {v : Value} {es : List (Value × Value)}
    (hv : v.entries? = some es) (hi : (Value.field es "impact").NamesTemplate) :
    (signal? t name es).Reads (Stops t v) (Decides (IsFlawed t v) fun signal =>
      match t.signalField? with
      | none => signal = name
      | some field => ∃ x, Value.lookup es field = some x ∧ x.shown = .ok signal) := by
  -- Of what stops an entry, only its signal is left.
  have hleft {f : Fault} (h : Stops t v f) : ∃ field x, t.signalField? = some field ∧
      Value.lookup es field = some x ∧ x.shown = .error f := by
    cases h with
    | impact hes h =>
      cases hv.symm.trans hes
      exact absurd h (not_stopsImpact hi f)
    | signal hes _ hf hx h =>
      cases hv.symm.trans hes
      exact ⟨_, _, hf, hx, h⟩
  unfold signal?
  cases hfield : t.signalField? with
  | none =>
    refine .pure (fun f h => ?_) (.describes (by simp) rfl)
    obtain ⟨field, x, hf, -⟩ := hleft h
    cases hfield.symm.trans hf
  | some field =>
    dsimp only
    cases hx : Value.lookup es field with
    | none =>
      refine .refuse (fun f h => ?_) (.single rfl (.signal hv hfield hx))
      obtain ⟨field', x, hf, hx', -⟩ := hleft h
      cases hfield.symm.trans hf
      cases hx.symm.trans hx'
    | some x =>
      refine .ofAttempt_bind (fun f h => .signal hv hi hfield hx h) fun signal hsignal => ?_
      refine .pure (fun f h => ?_) (.describes (by simp) ⟨x, rfl, hsignal⟩)
      obtain ⟨field', x', hf, hx', h⟩ := hleft h
      cases hfield.symm.trans hf
      cases hx.symm.trans hx'
      cases hsignal.symm.trans h

/-- A value is read as the entry of a table that it describes. -/
theorem reads_signalRule? (t : TableName) (name : Text) (v : Value) :
    (signalRule? t name v).Reads (Stops t v) (Decides (IsFlawed t v) fun rule =>
      ∃ es, v.entries? = some es ∧ rule.IsDescribedBy t name es) := by
  unfold signalRule?
  cases hv : v.entries? with
  | none =>
    refine .refuse (fun f h => ?_) (.single rfl (.shape hv))
    cases h with
    | impact hes _ => cases hv.symm.trans hes
    | signal hes _ _ _ _ => cases hv.symm.trans hes
  | some es =>
    dsimp only
    refine .impact_bind rfl (fun f h => .impact hv h) (fun hnames hstops f h => ?_)
      (fun hnames shown => ?_) fun template himpact => ?_
    · cases h with
      | impact hes h =>
        cases hv.symm.trans hes
        exact hstops f h
      | signal hes hi _ _ _ =>
        cases hv.symm.trans hes
        exact hnames hi
    · exact .single rfl (.impact hv hnames)
    · refine (reads_signal? name hv ⟨template, himpact⟩).bind (fun f h => h) ?_
      intro signal? first hnone hsignal
      cases hsignal with
      | flawed hn hne h => exact .pure hnone (by simpa using .flawed hn hne h)
      | describes hn h => exact .pure hnone (.describes (by simpa using hn) ⟨es, rfl, himpact, h⟩)

end RuleStore.Loading

end SurfaceAudit
