import Mathlib.Data.Option.Basic
import SurfaceAudit.Proofs.Exports
import SurfaceAudit.Proofs.Gate
import SurfaceAudit.Proofs.Steps
import SurfaceAudit.Result

/-!
# Results can be had back from their mappings

A reader of values decodes what a writer writes if it gives back what was written, in whatever order
the entries of mappings are (`Value.Decodes`). There is such a reader for evidence, which makes it
anew from its parts and so checks them, and one for results (`Result.decodes`). So results that are
written as the same mapping are the same, and what is missing in a result is told from what is there
and empty (`results_can_be_decoded`).
-/

namespace SurfaceAudit

namespace Value

/-- The integer of an integer. -/
def integer? : Value → Option Int
  | .int n => some n
  | _ => none

/-- What a reader makes of the elements of a sequence, if it can read them all. -/
def elements? {α : Type} (f : Value → Option α) (v : Value) : Option (List α) :=
  v.items?.bind (·.mapM f)

/-- What a reader makes of the value under a key that has to be there. -/
def part? {α : Type} (f : Value → Option α) (es : List (Value × Value)) (key : Text) : Option α :=
  (lookup es key).bind f

/-- What a reader makes of the value under a key that may be missing. -/
def optionalPart? {α : Type} (f : Value → Option α) (es : List (Value × Value)) (key : Text) :
    Option (Option α) :=
  match lookup es key with
  | none => some none
  | some v => (f v).map some

/-- A reader decodes what a writer writes: it gives back what was written, also if mappings have
their entries in another order. -/
def Decodes {α : Type} (f : Value → Option α) (g : α → Value) : Prop :=
  ∀ a v, Same (g a) v → f v = some a

namespace Same

variable {es fs : List (Value × Value)} {v : Value}

/-- What is the same as a mapping is a mapping. -/
theorem exists_map (h : Same (.map es) v) : ∃ fs, v = .map fs := by
  cases h with
  | refl => exact ⟨es, rfl⟩
  | map => exact ⟨_, rfl⟩

/-- What is the same as a sequence is a sequence of elements that are the same. -/
theorem exists_list {vs : List Value} (h : Same (.list vs) v) :
    ∃ ws, v = .list ws ∧ List.Forall₂ Same vs ws := by
  cases h with
  | refl => exact ⟨vs, rfl, List.forall₂_same.mpr fun v _ => .refl v⟩
  | list h => exact ⟨_, rfl, h⟩

/-- The keys of a mapping are there once if those of one are that is the same. -/
theorem keysOnce (h : Same (.map es) (.map fs)) (hes : KeysOnce es) : KeysOnce fs := by
  obtain ⟨gs, hperm, hgs⟩ := h.exists_perm
  -- The keys are those of the entries in the order of the other mapping.
  have hkeys : List.Forall₂ (· = ·) (fs.map (·.1)) (gs.map (·.1)) := by
    rw [List.forall₂_map_left_iff, List.forall₂_map_right_iff]
    exact hgs.flip.imp fun _ _ hfe => hfe.1.symm
  have hgs : KeysOnce gs := (hperm.filterMap _).nodup_iff.mp hes
  exact hgs.of_keys (List.forall₂_eq_eq_eq ▸ hkeys)

/-- What is under a key in a mapping is under it in one that is the same. -/
theorem exists_lookup (h : Same (.map es) (.map fs)) (hes : KeysOnce es) {key : Text}
    (hv : lookup es key = some v) : ∃ w, lookup fs key = some w ∧ Same v w := by
  obtain ⟨w, hw, hvw⟩ := h.exists_mem_right (mem_of_lookup hv)
  exact ⟨w, (h.keysOnce hes).lookup_of_mem hw, hvw⟩

/-- A key that is missing in a mapping is so in one that is the same. -/
theorem lookup_eq_none (h : Same (.map es) (.map fs)) (hes : KeysOnce es) {key : Text}
    (hv : lookup es key = none) : lookup fs key = none := by
  by_contra hne
  obtain ⟨w, hw⟩ := Option.ne_none_iff_exists'.mp hne
  obtain ⟨v, hmem, -⟩ := h.exists_mem_left (mem_of_lookup hw)
  cases hv.symm.trans (hes.lookup_of_mem hmem)

end Same

section Readers

variable {α : Type} {f : Value → Option α} {g : α → Value} {es fs : List (Value × Value)}
  {key : Text}

/-- Texts are decoded. -/
theorem decodes_text : Decodes text? .text := by
  intro t v h
  cases h
  rfl

/-- Integers are decoded. -/
theorem decodes_int : Decodes integer? .int := by
  intro n v h
  cases h
  rfl

/-- Sequences are decoded if their elements are. -/
theorem Decodes.elements (h : Decodes f g) : Decodes (elements? f) fun as => .list (as.map g) := by
  intro as v hv
  obtain ⟨ws, rfl, hws⟩ := hv.exists_list
  clear hv
  change ws.mapM f = some as
  rw [List.forall₂_map_left_iff] at hws
  induction hws with
  | nil => rfl
  | cons hw _ ih =>
    rw [List.mapM_cons, h _ _ hw, ih]
    rfl

/-- What is written under a key is read. -/
theorem Decodes.part? (h : Decodes f g) (hsame : Same (.map es) (.map fs)) (hes : KeysOnce es)
    {a : α} (ha : lookup es key = some (g a)) : part? f fs key = some a := by
  obtain ⟨w, hw, hgw⟩ := hsame.exists_lookup hes ha
  rw [Value.part?, hw, Option.bind_some, h a w hgw]

/-- What is written under a key or left out is read or found to be missing. -/
theorem Decodes.optionalPart? (h : Decodes f g) (hsame : Same (.map es) (.map fs))
    (hes : KeysOnce es) {o : Option α} (ho : lookup es key = o.map g) :
    optionalPart? f fs key = some o := by
  cases o with
  | none => rw [Value.optionalPart?, hsame.lookup_eq_none hes ho]
  | some a =>
    obtain ⟨w, hw, hgw⟩ := hsame.exists_lookup hes ho
    rw [Value.optionalPart?, hw]
    simp only [h a w hgw, Option.map_some]

end Readers

end Value

namespace Impact

/-- The value under the name of a surface in a mapping is had. -/
theorem fieldOf_map {es : List (Value × Value)} {t : Target} {v : Value}
    (h : Value.lookup es t.name = some v) : fieldOf (.map es) t = .ok v := by
  have hany : es.any (·.1.isText t.name) = true :=
    List.any_eq_true.mpr ⟨_, Value.mem_of_lookup h, Value.isText_iff.mpr rfl⟩
  have hholds : (Value.map es).holdsText t.name = .ok true := congrArg Except.ok hany
  have hfield : Value.field es t.name = v := by rw [Value.field, h, Option.getD_some]
  rw [fieldOf, hholds, ← hfield]
  rfl

/-- In the mapping of an impact, the name of each surface stands for that of its verdict. -/
theorem exists_shown (i : Impact) : ∃ es, i.toValue = .map es ∧ Value.KeysOnce es ∧
    ∀ t : Target, Value.lookup es t.name = some (.text (i.on t).name) :=
  ⟨_, rfl, of_decide_eq_true rfl, fun t => by cases t <;> rfl⟩

/-- An impact is made again from its mapping, whatever the order of the surfaces. -/
theorem ofValue_eq_of_same {i : Impact} {v : Value} (h : Value.Same i.toValue v) :
    ofValue v = .ok i := by
  obtain ⟨es, hes, honce, hshown⟩ := i.exists_shown
  rw [hes] at h
  obtain ⟨fs, rfl⟩ := h.exists_map
  have hverdict (t : Target) : (fieldOf (.map fs) t).bind Verdict.ofValue = .ok (i.on t) := by
    obtain ⟨w, hw, hsame⟩ := h.exists_lookup honce (hshown t)
    cases hsame
    rw [fieldOf_map hw]
    exact Verdict.ofValue_name _
  rw [ofValue, hverdict, hverdict, hverdict]
  rfl

/-- The impact that a mapping describes, if it describes one. -/
def ofValue? (v : Value) : Option Impact := (ofValue v).toOption

/-- Impacts are decoded: the mapping of one describes it and no other. -/
theorem decodes : Value.Decodes ofValue? toValue := by
  intro i v h
  rw [ofValue?, ofValue_eq_of_same h]
  rfl

end Impact

/-- A source is told by its name. -/
theorem Source.ofText_name (s : Source) : ofText s.name = .ok s := by cases s <;> decide

namespace Evidence

open Value in
/-- The evidence that a mapping describes, made from its parts. -/
def ofValue? (v : Value) : Option Evidence := do
  let es ← v.entries?
  let source ← part? text? es "source"
  let file ← part? text? es "file"
  let line ← optionalPart? integer? es "line"
  let signal ← part? text? es "signal"
  let detail ← part? text? es "detail"
  let impact ← lookup es "impact"
  (ofParts source file signal detail impact line).toOption

/-- The entries of the mapping of some evidence. -/
structure Shown (e : Evidence) (es : List (Value × Value)) : Prop where
  /-- Each key is there once. -/
  once : Value.KeysOnce es
  /-- The name of the source. -/
  source : Value.lookup es "source" = some (.text e.source.name)
  /-- The file. -/
  file : Value.lookup es "file" = some (.text e.file)
  /-- The line, which is missing exactly if there is none. -/
  line : Value.lookup es "line" = e.line.map .int
  /-- The signal. -/
  signal : Value.lookup es "signal" = some (.text e.signal)
  /-- The detail. -/
  detail : Value.lookup es "detail" = some (.text e.detail)
  /-- The impact. -/
  impact : Value.lookup es "impact" = some e.impact.toValue

/-- Evidence is shown by its mapping. -/
theorem exists_shown (e : Evidence) : ∃ es, e.toValue = .map es ∧ e.Shown es := by
  obtain ⟨source, file, line, signal, detail, impact⟩ := e
  cases line with
  | none => exact ⟨_, rfl, of_decide_eq_true rfl, rfl, rfl, rfl, rfl, rfl, rfl⟩
  | some n => exact ⟨_, rfl, of_decide_eq_true rfl, rfl, rfl, rfl, rfl, rfl, rfl⟩

/-- Evidence is made again from its parts, whatever the order of the surfaces in its impact. -/
theorem ofParts_eq (e : Evidence) {impact : Value} (h : Value.Same e.impact.toValue impact) :
    ofParts e.source.name e.file e.signal e.detail impact e.line = .ok e := by
  rw [ofParts, Source.ofText_name, Impact.ofValue_eq_of_same h]
  rfl

/-- Pieces of evidence are decoded. -/
theorem decodes : Value.Decodes ofValue? toValue := by
  intro e v h
  obtain ⟨es, hes, hshown⟩ := e.exists_shown
  rw [hes] at h
  obtain ⟨fs, rfl⟩ := h.exists_map
  obtain ⟨impact, himpact, hsame⟩ := h.exists_lookup hshown.once hshown.impact
  have hentries : (Value.map fs).entries? = some fs := rfl
  have htext {key t : Text} (ht : Value.lookup es key = some (.text t)) :
      Value.part? Value.text? fs key = some t := Value.decodes_text.part? h hshown.once ht
  have hline := Value.decodes_int.optionalPart? h hshown.once hshown.line
  simp only [ofValue?, hentries, htext hshown.source, htext hshown.file, hline,
    htext hshown.signal, htext hshown.detail, himpact, ofParts_eq e hsame, Option.bind_eq_bind,
    Option.bind_some]
  rfl

end Evidence

namespace Summary

open Value in
/-- The counts that a mapping describes. -/
def ofValue? (v : Value) : Option Summary := do
  let es ← v.entries?
  let total ← part? integer? es "totalFiles"
  let skills ← part? integer? es "skillFiles"
  let scripts ← part? integer? es "scriptFiles"
  let hooks ← part? integer? es "hookFiles"
  let servers ← part? integer? es "mcpConfigs"
  return ⟨total, skills, scripts, hooks, servers⟩

/-- Summaries are decoded. -/
theorem decodes : Value.Decodes ofValue? toValue := by
  intro s v h
  unfold toValue at h
  obtain ⟨fs, rfl⟩ := h.exists_map
  have honce : Value.KeysOnce [(Value.text "totalFiles", Value.int s.total),
      (.text "skillFiles", .int s.skills), (.text "scriptFiles", .int s.scripts),
      (.text "hookFiles", .int s.hooks), (.text "mcpConfigs", .int s.servers)] :=
    of_decide_eq_true rfl
  have hentries : (Value.map fs).entries? = some fs := rfl
  have hcount (key : Text) {n : Int} (hn : Value.lookup _ key = some (.int n)) :
      Value.part? Value.integer? fs key = some n := Value.decodes_int.part? h honce hn
  simp only [ofValue?, hentries, hcount "totalFiles" rfl, hcount "skillFiles" rfl,
    hcount "scriptFiles" rfl, hcount "hookFiles" rfl, hcount "mcpConfigs" rfl,
    Option.bind_eq_bind, Option.bind_some]
  rfl

end Summary

namespace Result

/-- The list of texts that a value is. -/
def texts? : Value → Option (List Text) := Value.elements? Value.text?

/-- Lists of texts are decoded. -/
theorem decodes_texts : Value.Decodes texts? texts := Value.decodes_text.elements

open Value in
/-- The result that a mapping describes; errors that are missing are none. -/
def ofValue? (v : Value) : Option Result := do
  let es ← v.entries?
  let plugin ← part? text? es "plugin"
  let version ← optionalPart? text? es "version"
  let declared ← optionalPart? texts? es "declared"
  let analyzed ← part? Impact.ofValue? es "analyzed"
  let evidence ← part? (elements? Evidence.ofValue?) es "evidence"
  let summary ← part? Summary.ofValue? es "summary"
  let errors ← optionalPart? texts? es "errors"
  return ⟨plugin, version, declared, analyzed, evidence, summary, errors.getD []⟩

/-- The entries of the mapping of a result. -/
structure Shown (r : Result) (es : List (Value × Value)) : Prop where
  /-- Each key is there once. -/
  once : Value.KeysOnce es
  /-- The name of the plugin. -/
  plugin : Value.lookup es "plugin" = some (.text r.plugin)
  /-- The version, which is missing exactly if there is none. -/
  version : Value.lookup es "version" = r.version.map .text
  /-- The surfaces that are listed, which are missing exactly if there is no list. -/
  declared : Value.lookup es "declared" = r.declared.map texts
  /-- The verdicts. -/
  analyzed : Value.lookup es "analyzed" = some r.analyzed.toValue
  /-- The evidence. -/
  evidence : Value.lookup es "evidence" = some (.list (r.evidence.map (·.toValue)))
  /-- The counts. -/
  summary : Value.lookup es "summary" = some r.summary.toValue
  /-- The errors, which are missing exactly if there are none. -/
  errors : Value.lookup es "errors" = if r.errors = [] then none else some (texts r.errors)

/-- A result is shown by its mapping. -/
theorem exists_shown (r : Result) : ∃ es, r.toValue = .map es ∧ r.Shown es := by
  obtain ⟨plugin, version, declared, analyzed, evidence, summary, errors⟩ := r
  -- What may be missing decides which entries there are.
  cases version <;> cases declared <;> cases errors <;>
    exact ⟨_, rfl, of_decide_eq_true rfl, rfl, rfl, rfl, rfl, rfl, rfl, rfl⟩

/-- Results are decoded. -/
theorem decodes : Value.Decodes ofValue? toValue := by
  intro r v h
  obtain ⟨es, hes, hshown⟩ := r.exists_shown
  rw [hes] at h
  obtain ⟨fs, rfl⟩ := h.exists_map
  have hentries : (Value.map fs).entries? = some fs := rfl
  have honce := hshown.once
  have hplugin := Value.decodes_text.part? h honce hshown.plugin
  have hversion := Value.decodes_text.optionalPart? h honce hshown.version
  have hdeclared := decodes_texts.optionalPart? h honce hshown.declared
  have hanalyzed := Impact.decodes.part? h honce hshown.analyzed
  have hevidence := Evidence.decodes.elements.part? h honce hshown.evidence
  have hsummary := Summary.decodes.part? h honce hshown.summary
  -- An empty list of errors is left out, and is what missing errors are read as.
  have herrors : Value.optionalPart? texts? fs "errors" =
      some (if r.errors = [] then none else some r.errors) := by
    refine decodes_texts.optionalPart? h honce (hshown.errors.trans ?_)
    split <;> rfl
  simp only [ofValue?, hentries, hplugin, hversion, hdeclared, hanalyzed, hevidence, hsummary,
    herrors, Option.bind_eq_bind, Option.bind_some]
  obtain ⟨plugin, version, declared, analyzed, evidence, summary, errors⟩ := r
  cases errors <;> rfl

end Result

/-- Results can be had back from their mappings, in whatever order the entries are, so results with
the same mapping are the same. What may be missing has an entry exactly if it is there, and an empty
list of surfaces is there. Evidence is made again from the parts that its mapping shows. -/
theorem results_can_be_decoded :
    (∀ r v, Value.Same (Result.toValue r) v → Result.ofValue? v = some r) ∧
      (∀ r r' : Result, Value.Same r.toValue r'.toValue → r = r') ∧
      (∀ r : Result, ∃ es, r.toValue = .map es ∧ r.Shown es) ∧
      (∀ e : Evidence, ∃ es, e.toValue = .map es ∧ e.Shown es) ∧
      (∀ (e : Evidence) (impact : Value), Value.Same e.impact.toValue impact →
        Evidence.ofParts e.source.name e.file e.signal e.detail impact e.line = .ok e) ∧
      ∀ e v, Value.Same (Evidence.toValue e) v → Evidence.ofValue? v = some e := by
  refine ⟨Result.decodes, fun r r' h => ?_, Result.exists_shown, Evidence.exists_shown,
    fun e impact h => e.ofParts_eq h, Evidence.decodes⟩
  have hr : Result.ofValue? r'.toValue = some r := Result.decodes r _ h
  have hr' : Result.ofValue? r'.toValue = some r' := Result.decodes r' _ (.refl _)
  exact Option.some.inj (hr.symm.trans hr')

/-- A mapping is the same with its entries turned round. -/
theorem Value.Same.reverse (es : List (Value × Value)) : Same (.map es) (.map es.reverse) :=
  .map es.reverse_perm.symm rfl (List.forall₂_same.mpr fun v _ => .refl v)

/-- A result with an empty list of surfaces and evidence without a line. -/
def sparseResult : Result :=
  { plugin := "p", version := none, declared := some [], analyzed := .none
    evidence := [⟨.hook, "h.json", none, "command:jq", "d", Template.reviewDesktop.impact⟩],
    summary := ⟨1, 0, 0, 1, 0⟩, errors := [] }

/-- The sparse result is read from its entries turned round, and is told from the one without a
list. -/
theorem results_can_be_decoded_sparse :
    ∃ es, sparseResult.toValue = .map es ∧ Value.Same sparseResult.toValue (.map es.reverse) ∧
      Result.ofValue? (.map es.reverse) = some sparseResult ∧
      ¬Value.Same sparseResult.toValue { sparseResult with declared := none }.toValue ∧
      ∀ e ∈ sparseResult.evidence, ∃ fs, e.impact.toValue = .map fs ∧
        Value.Same e.impact.toValue (.map fs.reverse) ∧
        Evidence.ofParts e.source.name e.file e.signal e.detail (.map fs.reverse) e.line =
          .ok e := by
  obtain ⟨hread, hinj, hshown, -, hparts, -⟩ := results_can_be_decoded
  obtain ⟨es, hes, -⟩ := hshown sparseResult
  have hreverse : Value.Same sparseResult.toValue (.map es.reverse) := hes ▸ .reverse es
  refine ⟨es, hes, hreverse, hread _ _ hreverse, fun h => ?_, fun e _ => ?_⟩
  · have hdeclared := congrArg Result.declared (hinj _ _ h)
    cases hdeclared
  · have himpact : Value.Same e.impact.toValue _ := .reverse _
    exact ⟨_, rfl, himpact, hparts e _ himpact⟩

end SurfaceAudit
