import SurfaceAudit.Proofs.Merging
import SurfaceAudit.Value.Container
import SurfaceAudit.Yaml.Document
import Mathlib.Data.List.Forall2

/-!
# Mappings of YAML documents

The mappings of a document have each text key once (`Yaml.isKeyed_of_load`), and keys and members of
sets are scalars (`Yaml.hasScalarKeys_of_load`). Keys are set one after the other while a mapping is
filled (`Yaml.Loader.IsKeyed.fillAll`), and stay as they are when the value of the document is put
together (`Yaml.Cells.composes_value`), also in mappings that contain themselves.
-/

namespace SurfaceAudit

namespace Value

/-- The value holds no other values and does not stand for one that does. -/
def IsScalar : Value → Prop
  | .null | .bool _ | .int _ | .real _ | .text _ | .bytes _ | .date _ | .moment _ => True
  | _ => False

/-- A scalar is no mapping. -/
theorem IsScalar.isPlain {v : Value} (h : v.IsScalar) : v.IsPlain := by
  cases v <;> first | exact h.elim | simp [IsPlain]

/-- A scalar has no links in it. -/
theorem IsScalar.tie_eq {v : Value} (h : v.IsScalar) (cells : List (Value × Value)) :
    tie cells v = v := by
  cases v <;> first | exact h.elim | rfl

/-- Each text is a key once, and all keys are scalars. -/
structure ScalarKeysOnce {α : Type} (es : List (Value × α)) : Prop where
  /-- Each text is a key once. -/
  once : KeysOnce es
  /-- The keys are scalars. -/
  scalar : ∀ e ∈ es, e.1.IsScalar

/-- Without entries, there are no keys. -/
theorem scalarKeysOnce_nil {α : Type} : ScalarKeysOnce ([] : List (Value × α)) :=
  ⟨List.nodup_nil, by simp⟩

/-- Keys stay scalars, and apart, if one more is set. -/
theorem ScalarKeysOnce.set {α : Type} {es : List (Value × α)} (h : ScalarKeysOnce es) {k : Value}
    (hk : k.IsScalar) (v : α) :
    ScalarKeysOnce (if es.any (·.1.sameKey k) then
      es.map fun e => if e.1.sameKey k then (e.1, v) else e else es ++ [(k, v)]) := by
  refine ⟨h.once.set k v, ?_⟩
  split
  · intro e he
    obtain ⟨x, hx, rfl⟩ := List.mem_map.mp he
    split
    · exact h.scalar x hx
    · exact h.scalar x hx
  · exact List.forall_mem_append.mpr ⟨h.scalar, List.forall_mem_singleton.mpr hk⟩

/-- The keys of every mapping that is reached through mappings, and the members of every set that
is, are scalars. -/
inductive HasScalarKeys : Value → Prop where
  /-- A mapping. -/
  | map {es : List (Value × Value)} (keys : ∀ e ∈ es, e.1.IsScalar)
    (inner : ∀ e ∈ es, HasScalarKeys e.2) : HasScalarKeys (.map es)
  /-- A set. -/
  | set {items : List Value} (h : ∀ v ∈ items, v.IsScalar) : HasScalarKeys (.set items)
  /-- A container that contains itself. -/
  | knot {drawing : Value} {cells : List (Value × Value)} {i : Nat}
    (inner : ∀ c ∈ cells, HasScalarKeys c.2) : HasScalarKeys (.knot drawing cells i)
  /-- Anything else. -/
  | other {v : Value} (h : v.IsPlain) (hs : ∀ items, v ≠ .set items) : HasScalarKeys v

/-- Replacing links changes no keys. -/
theorem HasScalarKeys.tie {cells : List (Value × Value)} (hc : ∀ c ∈ cells, HasScalarKeys c.2)
    {v : Value} (h : HasScalarKeys v) : HasScalarKeys (tie cells v) := by
  induction h with
  | map keys _ ih =>
    rw [Value.tie, tieEntries_eq]
    refine .map (fun e he => ?_) fun e he => ?_
    · obtain ⟨x, hx, rfl⟩ := List.mem_map.mp he
      simpa only [(keys x hx).tie_eq] using keys x hx
    · obtain ⟨x, hx, rfl⟩ := List.mem_map.mp he
      exact ih x hx
  | @set items h =>
    -- The items of a set are scalars, and in these there is no link to replace.
    have hitems : tieAll cells items = items := by
      induction items with
      | nil => rfl
      | cons v r ih =>
        obtain ⟨hv, hr⟩ := List.forall_mem_cons.mp h
        rw [tieAll, hv.tie_eq, ih hr]
    rw [Value.tie, hitems]
    exact .set h
  | knot inner _ =>
    rw [Value.tie] <;> first | exact .knot inner | simp
  | @other v hv hs =>
    cases v with
    | link i =>
      rw [Value.tie]
      split
      · exact .knot hc
      · exact .other (by simp [IsPlain]) (by simp)
    | map es => exact absurd rfl (hv.1 es)
    | set items => exact absurd rfl (hs items)
    | knot drawing cells i => exact absurd rfl (hv.2 drawing cells i)
    | _ => rw [Value.tie] <;> first | exact .other (by simp [IsPlain]) (by simp) | simp

/-- The outermost layer of a value has scalar keys too. -/
theorem HasScalarKeys.layer {v : Value} (h : HasScalarKeys v) : HasScalarKeys v.layer := by
  cases h with
  | map keys inner => exact .map keys inner
  | set h => exact .set h
  | @knot drawing cells i inner =>
    rw [Value.layer]
    split
    · rename_i hbody
      exact (inner _ (List.mem_of_getElem? hbody)).tie inner
    · exact .other (by simp [IsPlain]) (by simp)
  | other hv hs =>
    rw [Value.layer]
    · exact .other hv hs
    · exact hv.2

/-- A value under a text key has scalar keys, if the values of the entries have. -/
theorem HasScalarKeys.field {v : Value} (h : HasScalarKeys v) {es : List (Value × Value)}
    (he : v.entries? = some es) (name : Text) : HasScalarKeys (field es name) := by
  have hinner : ∀ e ∈ es, HasScalarKeys e.2 := by
    have hlayer := h.layer
    unfold entries? at he
    split at he
    · rename_i hl
      cases he
      rw [hl] at hlayer
      cases hlayer with
      | map _ inner => exact inner
      | other hv _ => exact absurd rfl (hv.1 _)
    · cases he
  unfold Value.field lookup
  cases hfind : es.find? fun e => e.1.isText name with
  | none => exact .other (by simp [IsPlain]) (by simp)
  | some e => exact hinner e (List.mem_of_find?_eq_some hfind)

end Value

namespace Yaml

/-- A chain of two operations that gives a value goes through one of the first. -/
theorem exists_of_bind_eq_ok {ε α β : Type} {x : Except ε α} {f : α → Except ε β} {b : β}
    (h : (x >>= f) = .ok b) : ∃ a, x = .ok a ∧ f a = .ok b := by
  cases x with
  | ok a => exact ⟨a, rfl, h⟩
  | error e => cases h

/-- What a node has become has each text key once, and its keys are scalars; a value is no
container.
-/
def Cell.IsKeyed : Cell → Prop
  | .value v => v.IsScalar
  | .map es => Value.ScalarKeysOnce es
  | .set items => ∀ v ∈ items, v.IsScalar
  | _ => True

/-- The value of a scalar node is a scalar. -/
theorem Scalar.isScalar_of_value {tag : Tag} {t : Text} {v : Value}
    (h : Scalar.value tag t = .ok v) : v.IsScalar := by
  unfold Scalar.value at h
  -- Every tag makes a scalar of its own kind or fails; which text it is made of does not matter.
  cases tag with
  | null | str =>
    cases h
    trivial
  | bool =>
    dsimp only at h
    split at h <;> cases h
    trivial
  | int =>
    dsimp only at h
    cases hx : int t <;> rw [hx] at h <;> cases h
    trivial
  | float =>
    dsimp only at h
    cases hx : float t <;> rw [hx] at h <;> cases h
    trivial
  | binary =>
    dsimp only at h
    split at h
    · split at h <;> cases h
      trivial
    · cases h
  | timestamp =>
    dsimp only at h
    split at h
    · cases h
    · split at h <;> cases h <;> trivial
  | _ => cases h

namespace Loader

/-- All that nodes have become has each text key once. -/
def IsKeyed (l : Loader) : Prop :=
  ∀ (i : Nat) (c : Cell), l.cells[i]? = some (some c) → c.IsKeyed

/-- A node may become what has each text key once. -/
theorem IsKeyed.become {l : Loader} (h : l.IsKeyed) (i : Nat) {c : Cell} (hc : c.IsKeyed) :
    (l.become i c).IsKeyed := by
  intro j c' hj
  unfold Loader.become at hj
  rw [Array.getElem?_setIfInBounds] at hj
  split at hj
  · split at hj
    · cases hj
      exact hc
    · cases hj
  · exact h j c' hj

/-- A collection that is opened has no keys yet. -/
theorem IsKeyed.openAs {l : Loader} (h : l.IsKeyed) (i : Nat) {c : Cell} (hc : c.IsKeyed) :
    (l.openAs i c).IsKeyed := h.become i hc

/-- Meeting a node keeps keys apart. -/
theorem IsKeyed.meet {l l' : Loader} (h : l.IsKeyed) {i : Nat} (hm : l.meet i = .ok l') :
    l'.IsKeyed := by
  have hscalar (hs : (l.scalarValue i >>= fun v => return l.become i (.value v)) = .ok l') :
      l'.IsKeyed := by
    obtain ⟨v, hv, hs⟩ := exists_of_bind_eq_ok hs
    cases hs
    refine h.become i ?_
    obtain ⟨t, -, hv⟩ := exists_of_bind_eq_ok hv
    split at hv
    · exact Scalar.isScalar_of_value hv
    · cases hv
    · exact Scalar.isScalar_of_value hv
  unfold Loader.meet at hm
  split at hm
  · cases hm
    exact h
  · split at hm
    -- A collection is opened, or there is a value; other tags are at fault.
    all_goals first
      | exact hscalar hm
      | cases hm <;> exact h.openAs i (by simp [Cell.IsKeyed, Value.scalarKeysOnce_nil])

/-- Meeting nodes in order keeps keys apart. -/
theorem IsKeyed.foldlM {step : Loader → Nat → Loading}
    (hstep : ∀ {l l' : Loader} {i : Nat}, l.IsKeyed → step l i = .ok l' → l'.IsKeyed)
    {items : List Nat} {l l' : Loader} (h : l.IsKeyed) (hm : items.foldlM step l = .ok l') :
    l'.IsKeyed := by
  induction items generalizing l with
  | nil =>
    cases hm
    exact h
  | cons i r ih =>
    rw [List.foldlM_cons] at hm
    obtain ⟨m, hi, hr⟩ := exists_of_bind_eq_ok hm
    exact ih (hstep h hi) hr

/-- The key that a node has become is a scalar. -/
theorem IsKeyed.keyOf {l : Loader} (h : l.IsKeyed) {i : Nat} {key : Value}
    (hk : l.keyOf i = .ok key) : key.IsScalar := by
  unfold Loader.keyOf at hk
  split at hk
  · rename_i v hv
    cases hk
    obtain ⟨c, hc, rfl⟩ := Option.bind_eq_some_iff.mp hv
    exact h i _ hc
  · cases hk

/-- The entries that are gathered have each text key once. -/
theorem IsKeyed.meetEntries {es : List (Nat × Nat)} {l l' : Loader}
    {done done' : List (Value × Nat)} (h : l.IsKeyed) (hd : Value.ScalarKeysOnce done)
    (hm : l.meetEntries es done = .ok (l', done')) : l'.IsKeyed ∧ Value.ScalarKeysOnce done' := by
  induction es generalizing l done with
  | nil =>
    cases hm
    exact ⟨h, hd⟩
  | cons e r ih =>
    obtain ⟨k, v⟩ := e
    obtain ⟨m, hk, hm⟩ := exists_of_bind_eq_ok hm
    obtain ⟨key, hkey, hm⟩ := exists_of_bind_eq_ok hm
    obtain ⟨m', hv, hm⟩ := exists_of_bind_eq_ok hm
    exact ih ((h.meet hk).meet hv) (hd.set ((h.meet hk).keyOf hkey) v) hm

/-- Meeting pairs keeps keys apart. -/
theorem IsKeyed.meetPairs {items : List Nat} {l l' : Loader} {done done' : List (Nat × Nat)}
    (h : l.IsKeyed) (hm : l.meetPairs items done = .ok (l', done')) : l'.IsKeyed := by
  induction items generalizing l done with
  | nil =>
    cases hm
    exact h
  | cons i r ih =>
    unfold Loader.meetPairs at hm
    split at hm
    · obtain ⟨m, hk, hm⟩ := exists_of_bind_eq_ok hm
      obtain ⟨m', hv, hm⟩ := exists_of_bind_eq_ok hm
      exact ih ((h.meet hk).meet hv) hm
    · cases hm

/-- Merging mappings into one changes only nodes. -/
theorem cells_flatten (bound : Nat) :
    (∀ l l' i, flatten bound l i = .ok l' → l'.cells = l.cells) ∧
    (∀ l l' i place merged, flattenFrom bound l i place merged = .ok l' → l'.cells = l.cells) ∧
    ∀ l l' items later later', flattenAll bound l items later = .ok (l', later') →
      l'.cells = l.cells := by
  -- The three call one another with a bound that is one less, so one induction carries them all.
  induction bound with
  | zero =>
    refine ⟨?_, ?_, ?_⟩
    · intro l l' i h
      cases h
    · intro l l' i place merged h
      cases h
    · intro l l' items later later' h
      cases h
  | succ bound ih =>
    obtain ⟨hflatten, hfrom, hall⟩ := ih
    refine ⟨?_, ?_, ?_⟩
    · intro l l' i h
      exact hfrom l l' i 0 [] h
    · intro l l' i place merged h
      unfold flattenFrom at h
      dsimp only at h
      split at h
      · split at h <;> cases h <;> rfl
      · split at h
        · split at h
          · obtain ⟨m, hm, h⟩ := exists_of_bind_eq_ok h
            have hcells := hflatten _ _ _ hm
            exact (hfrom _ _ _ _ _ h).trans hcells
          · obtain ⟨⟨m, more⟩, hm, h⟩ := exists_of_bind_eq_ok h
            have hcells := hall _ _ _ _ _ hm
            exact (hfrom _ _ _ _ _ h).trans hcells
          · cases h
        · split at h
          · have hcells := hfrom _ _ _ _ _ h
            exact hcells
          · exact hfrom _ _ _ _ _ h
    · intro l l' items later later' h
      unfold flattenAll at h
      split at h
      · cases h
        rfl
      · split at h
        · obtain ⟨m, hm, h⟩ := exists_of_bind_eq_ok h
          exact (hall _ _ _ _ _ h).trans (hflatten _ _ _ hm)
        · cases h

/-- The entries of a mapping have each text key once. -/
theorem IsKeyed.fillEntries {l l' : Loader} {i : Nat} {es : List (Value × Nat)} (h : l.IsKeyed)
    (hf : l.fillEntries i = .ok (l', es)) : l'.IsKeyed ∧ Value.ScalarKeysOnce es := by
  unfold Loader.fillEntries at hf
  split at hf
  · cases hf
  · obtain ⟨m, hm, hf⟩ := exists_of_bind_eq_ok hf
    have hkeyed : m.IsKeyed := by
      unfold Loader.IsKeyed
      rw [(cells_flatten _).1 _ _ _ hm]
      exact h
    exact hkeyed.meetEntries Value.scalarKeysOnce_nil hf

/-- Filling a collection keeps keys apart. -/
theorem IsKeyed.fill {l l' : Loader} {i : Nat} (h : l.IsKeyed) (hf : l.fill i = .ok l') :
    l'.IsKeyed := by
  unfold Loader.fill at hf
  -- One case for each kind of collection; only those with entries have keys to keep apart.
  split at hf
  · obtain ⟨m, hm, hf⟩ := exists_of_bind_eq_ok hf
    cases hf
    exact (foldlM (fun h hs => h.meet hs) h hm).become i trivial
  · obtain ⟨⟨m, es⟩, hm, hf⟩ := exists_of_bind_eq_ok hf
    cases hf
    exact (h.fillEntries hm).1.become i (h.fillEntries hm).2
  · obtain ⟨⟨m, es⟩, hm, hf⟩ := exists_of_bind_eq_ok hf
    cases hf
    have hitems : ∀ v ∈ es.map (·.1), v.IsScalar := by
      simpa using fun v n he => (h.fillEntries hm).2.scalar (v, n) he
    exact (h.fillEntries hm).1.become i hitems
  · obtain ⟨⟨m, pairs⟩, hm, hf⟩ := exists_of_bind_eq_ok hf
    cases hf
    exact (h.meetPairs hm).become i trivial
  · obtain ⟨⟨m, pairs⟩, hm, hf⟩ := exists_of_bind_eq_ok hf
    cases hf
    exact (h.meetPairs hm).become i trivial
  · cases hf

/-- Filling all collections keeps keys apart. -/
theorem IsKeyed.fillAll {bound : Nat} {l l' : Loader} (h : l.IsKeyed)
    (hf : Loader.fillAll bound l = .ok l') : l'.IsKeyed := by
  induction bound generalizing l with
  | zero =>
    cases hf
    exact h
  | succ bound ih =>
    unfold Loader.fillAll at hf
    split at hf
    · cases hf
      exact h
    · obtain ⟨m, hm, hf⟩ := exists_of_bind_eq_ok hf
      have hopened : Loader.IsKeyed { l with opened := [] } := h
      exact ih (foldlM (fun h hs => h.fill hs) hopened hm) hf

end Loader

namespace Cells

/-- All that nodes have become has each text key once. -/
def IsKeyed (cells : Cells) : Prop := ∀ i, (cells.get i).IsKeyed

/-- A property of values that the value of a document has if it is put together from scalars and
keys that are scalars. -/
structure Composes (holds : Value → Prop) : Prop where
  /-- Scalars have the property. -/
  scalar : ∀ v, v.IsScalar → holds v
  /-- So have links, -/
  link : ∀ i, holds (.link i)
  /-- sequences, -/
  list : ∀ items, holds (.list items)
  /-- sets of scalars, -/
  set : ∀ items, (∀ v ∈ items, v.IsScalar) → holds (.set items)
  /-- and mappings whose values have it. -/
  map : ∀ es : List (Value × Value), Value.ScalarKeysOnce es → (∀ e ∈ es, holds e.2) →
    holds (.map es)
  /-- Replacing links keeps it. -/
  tie : ∀ (cells : List (Value × Value)) (v : Value), (∀ c ∈ cells, holds c.2) → holds v →
    holds (v.tie cells)

/-- The values that are known have a property. -/
def Known.All (holds : Value → Prop) (known : Known) : Prop :=
  ∀ (i : Nat) (v : Value), known[i]? = some (some v) → holds v

/-- A value that becomes known keeps a property of all that are. -/
theorem Known.All.set {holds : Value → Prop} {known : Known} (h : Known.All holds known) (i : Nat)
    {v : Value} (hv : holds v) : Known.All holds (known.setIfInBounds i (some v)) := by
  intro j w hj
  rw [Array.getElem?_setIfInBounds] at hj
  split at hj
  · split at hj
    · cases hj
      exact hv
    · cases hj
  · exact h j w hj

/-- Nothing is known at first. -/
theorem Known.all_replicate (holds : Value → Prop) (n : Nat) :
    Known.All holds (Array.replicate n none) := by
  intro i v hv
  rw [Array.getElem?_replicate] at hv
  split at hv <;> cases hv

/-- A step finds what has a property, and keeps that of the values that are known. -/
def Finds (holds : Value → Prop) {α : Type} (P : α → Prop) (s : StateM Known α) : Prop :=
  ∀ known, Known.All holds known → P (s known).1 ∧ Known.All holds (s known).2

variable {holds : Value → Prop}

/-- A value with the property is found, and nothing else is learned. -/
theorem Finds.pure {α : Type} {P : α → Prop} {a : α} (h : P a) : Finds holds P (pure a) :=
  fun _ hk => ⟨h, hk⟩

/-- A chain of two steps finds what the second one finds. -/
theorem Finds.bind {α β : Type} {P : α → Prop} {Q : β → Prop} {s : StateM Known α}
    {k : α → StateM Known β} (hs : Finds holds P s) (hk : ∀ a, P a → Finds holds Q (k a)) :
    Finds holds Q (s >>= k) :=
  fun known hknown => hk _ (hs known hknown).1 _ (hs known hknown).2

/-- Steps for the members of a list find what they find for each. -/
theorem Finds.mapM {α β : Type} {R : α → β → Prop} {f : α → StateM Known β}
    (hf : ∀ a, Finds holds (R a) (f a)) (xs : List α) :
    Finds holds (List.Forall₂ R xs) (xs.mapM f) := by
  induction xs with
  | nil => exact Finds.pure .nil
  | cons x r ih =>
    rw [List.mapM_cons]
    exact (hf x).bind fun y hy => ih.bind fun ys hys => Finds.pure (.cons hy hys)

variable {cells : Cells}

/-- A mapping with the keys of a collection has the property, if the values have it. -/
theorem Composes.map_of_forall₂ (h : Composes holds) {entries : List (Value × Nat)}
    (hkeys : Value.ScalarKeysOnce entries) {es : List (Value × Value)}
    (hes : List.Forall₂ (fun e e' => e'.1 = e.1 ∧ holds e'.2) entries es) :
    holds (.map es) := by
  have hsame : es.map (·.1) = entries.map (·.1) := by
    clear hkeys
    induction hes with
    | nil => rfl
    | cons he _ ih => rw [List.map_cons, List.map_cons, ih, he.1]
  have hinner : ∀ e ∈ es, holds e.2 := by
    clear hkeys hsame
    induction hes with
    | nil => simp
    | cons he _ ih => exact List.forall_mem_cons.mpr ⟨he.2, ih⟩
  have hscalar : ∀ e ∈ es, e.1.IsScalar := by
    intro e he
    have hmem : e.1 ∈ entries.map (·.1) := hsame ▸ List.mem_map_of_mem he
    obtain ⟨x, hx, hkey⟩ := List.mem_map.mp hmem
    exact hkey ▸ hkeys.scalar x hx
  exact h.map es ⟨hkeys.once.of_keys hsame, hscalar⟩ hinner

/-- The value of a collection has the property, if the values of its parts have. -/
theorem Composes.finds_linkedParts (h : Composes holds) (hc : cells.IsKeyed)
    {part : Nat → StateM Known Value} (hp : ∀ i, Finds holds holds (part i)) (i : Nat) :
    Finds holds holds (cells.linkedParts part i) := by
  have hi := hc i
  unfold linkedParts
  -- The parts are found one after the other, and what is known of the values on the way stays so.
  cases hcell : cells.get i with
  | value v =>
    rw [hcell] at hi
    exact Finds.pure (h.scalar v hi)
  | list items => exact (Finds.mapM hp items).bind fun vs _ => Finds.pure (h.list vs)
  | map entries =>
    rw [hcell] at hi
    have hentry (e : Value × Nat) :
        Finds holds (fun e' : Value × Value => e'.1 = e.1 ∧ holds e'.2)
          (do return (e.1, ← part e.2)) := (hp e.2).bind fun v hv => Finds.pure ⟨rfl, hv⟩
    exact (Finds.mapM hentry entries).bind fun es hes => Finds.pure (h.map_of_forall₂ hi hes)
  | set items =>
    rw [hcell] at hi
    exact Finds.pure (h.set items hi)
  | pairs items =>
    have hpair (e : Nat × Nat) : Finds holds (fun _ => True)
        (do return Value.tuple [← part e.1, ← part e.2]) :=
      (hp e.1).bind fun _ _ => (hp e.2).bind fun _ _ => Finds.pure trivial
    exact (Finds.mapM hpair items).bind fun vs _ => Finds.pure (h.list vs)

/-- The value of a node has the property. -/
theorem Composes.finds_linked (h : Composes holds) (hc : cells.IsKeyed) (knots : List Nat)
    (bound i : Nat) : Finds holds holds (cells.linked knots bound i) := by
  induction bound generalizing i with
  | zero => exact Finds.pure (h.scalar .null trivial)
  | succ bound ih =>
    have hget : Finds holds (Known.All holds) (MonadState.get : StateM Known Known) :=
      fun known hk => ⟨hk, hk⟩
    unfold linked
    refine hget.bind fun known hknown => ?_
    split
    · -- The value is known from before, and all that is known has the property.
      rename_i v hv
      obtain ⟨o, ho, rfl⟩ := Option.bind_eq_some_iff.mp hv
      exact Finds.pure (hknown i v ho)
    · split
      · exact Finds.pure (h.link _)
      · refine (h.finds_linkedParts hc ih i).bind fun v hv => ?_
        have hset : Finds holds (fun _ => True)
            (modify fun known : Known => known.setIfInBounds i (some v)) :=
          fun known hk => ⟨trivial, hk.set i hv⟩
        exact hset.bind fun _ _ => Finds.pure hv

/-- The value of a document has the property. -/
theorem composes_value (h : Composes holds) (hc : cells.IsKeyed) (root : Nat) :
    holds (cells.value root) := by
  have hnone := Known.all_replicate holds cells.size
  unfold value
  dsimp only
  split
  · exact (h.finds_linked hc [] _ root _ hnone).1
  · -- The cells to which the links are tied were put together like the value itself.
    refine h.tie _ _ ?_ (h.finds_linked hc _ _ root _ hnone).1
    intro c hcell
    obtain ⟨i, -, rfl⟩ := List.mem_map.mp hcell
    exact (h.finds_linkedParts hc (h.finds_linked hc _ _) i _ hnone).1

end Cells

/-- Having each text key once is a property that composes. -/
theorem composes_isKeyed : Cells.Composes Value.IsKeyed where
  scalar v h := .other h.isPlain
  link i := .other (by simp [Value.IsPlain])
  list items := .other (by simp [Value.IsPlain])
  set items _ := .other (by simp [Value.IsPlain])
  map es h inner := .map h.once inner
  tie cells v hc h := h.tie hc

/-- The value of a document has every property that composes. -/
theorem Graph.holds_value {holds : Value → Prop} (hh : Cells.Composes holds) {g : Graph} {v : Value}
    (h : g.value = .ok v) : holds v := by
  unfold Graph.value at h
  obtain ⟨l, hl, h⟩ := exists_of_bind_eq_ok h
  obtain ⟨m, hm, h⟩ := exists_of_bind_eq_ok h
  cases h
  -- In the beginning no cell has a value, so no key has been met twice.
  have hstart : Loader.IsKeyed ⟨g.nodes, Array.replicate g.nodes.size none, []⟩ := by
    intro i c hc
    rw [Array.getElem?_replicate] at hc
    split at hc <;> cases hc
  have hfilled : m.IsKeyed := (hstart.meet hl).fillAll hm
  refine Cells.composes_value hh (fun i => ?_) g.root
  unfold Cells.get
  cases hc : (m.cells[i]?).bind id with
  | none =>
    have hdefault : Value.IsScalar .null := trivial
    exact hdefault
  | some c =>
    obtain ⟨o, ho, rfl⟩ := Option.bind_eq_some_iff.mp hc
    exact hfilled i c ho

/-- What is read from a text has every property that composes. -/
theorem holds_load {holds : Value → Prop} (hh : Cells.Composes holds) {t : Text} {v : Value}
    (h : load t = .ok v) : holds v := by
  unfold load at h
  obtain ⟨g, -, h⟩ := exists_of_bind_eq_ok h
  cases g with
  | none =>
    cases h
    exact hh.scalar .null trivial
  | some g => exact Graph.holds_value hh h

/-- What is read from a text has each text key of its mappings once. -/
theorem isKeyed_of_load {t : Text} {v : Value} (h : load t = .ok v) : v.IsKeyed :=
  holds_load composes_isKeyed h

end Yaml

end SurfaceAudit
