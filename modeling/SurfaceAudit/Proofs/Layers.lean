import SurfaceAudit.Proofs.Merging

/-!
# Mappings laid over one another

Several mappings are laid over one another, the highest first. What they hold under a key is told by
the values that they give to the key, from the highest down (`Value.lookup_laid`): the highest
value, if it or the next one is no mapping (`Value.stacked_of_plain`). Under a name in mappings it
is the value of the highest mapping that has the name, as far down as the values are mappings
(`Value.stacked_settled`), so laying what was laid over more leaves a name to what is below only
where nothing above settles it (`Value.settled_stacked`).
-/

namespace SurfaceAudit.Value

/-- Mappings laid over one another, the highest first. -/
def laid : List (List (Value × Value)) → List (Value × Value)
  | [] => []
  | top :: lower => mergeEntries (laid lower) top

/-- The values that mappings give to a key. -/
def values (layers : List (List (Value × Value))) (key : Text) : List Value :=
  layers.filterMap fun layer => lookup layer key

/-- Values laid over one another, the highest first. -/
def stacked : List Value → Option Value
  | [] => none
  | top :: lower => some (laidOver (mergeTo (mergeDepth - 1)) (stacked lower) top)

/-- The value that the highest of several mappings with a name gives it. What is no mapping hides
those below. -/
def settled (name : Text) : List Value → Option Value
  | [] => none
  | top :: lower =>
    match top.entries? with
    | none => none
    | some es => (lookup es name).or (settled name lower)

/-- The values that mappings give to a key start with that of the highest mapping, if it has the
key. -/
theorem values_cons (top : List (Value × Value)) (lower : List (List (Value × Value)))
    (key : Text) : values (top :: lower) key = (lookup top key).toList ++ values lower key := by
  unfold values
  rw [List.filterMap_cons]
  cases lookup top key <;> rfl

/-- A mapping settles a name, or leaves it to those below. -/
theorem settled_cons {top : Value} {es : List (Value × Value)} (h : top.entries? = some es)
    (name : Text) (lower : List Value) :
    settled name (top :: lower) = (lookup es name).or (settled name lower) := by
  rw [settled, h]

/-- No mapping among values gives a mapping to a name. -/
def IsPlainIn (name : Text) (vs : List Value) : Prop :=
  ∀ v ∈ vs, ∀ es w, v.entries? = some es → lookup es name = some w → w.entries? = none

/-- A mapping whose mappings hold plain values gives no mapping to a name. -/
theorem isPlainIn_values {layer : List (Value × Value)}
    (h : ∀ e ∈ layer, ∀ x ∈ e.2.entries?.getD [], x.2.IsPlain) (key name : Text) :
    IsPlainIn name (values [layer] key) := by
  intro v hv es w hes hw
  obtain ⟨l, hl, hv⟩ := List.mem_filterMap.mp hv
  rw [List.mem_singleton.mp hl] at hv
  obtain ⟨e, he, rfl⟩ := Option.map_eq_some_iff.mp hv
  obtain ⟨x, hx, rfl⟩ := Option.map_eq_some_iff.mp hw
  refine (h e (List.mem_of_find?_eq_some he) x ?_).entries?_eq
  rw [hes]
  exact List.mem_of_find?_eq_some hx

/-- In a merge, the value of a text key is that of the upper mapping laid over that of the lower
one. -/
theorem lookup_mergeEntries {upper : List (Value × Value)} (h : KeysOnce upper)
    (base : List (Value × Value)) (key : Text) : lookup (mergeEntries base upper) key =
      match lookup upper key with
      | none => lookup base key
      | some v => some (laidOver (mergeTo (mergeDepth - 1)) (lookup base key) v) :=
  lookup_mergeTo h (mergeDepth - 1) base key

/-- What mappings laid over one another hold under a key is told by the values that they give it. -/
theorem lookup_laid {layers : List (List (Value × Value))}
    (h : ∀ layer ∈ layers, IsKeyed (.map layer)) (key : Text) :
    lookup (laid layers) key = stacked (values layers key) := by
  induction layers with
  | nil => rfl
  | cons top lower ih =>
    obtain ⟨htop, hlower⟩ := List.forall_mem_cons.mp h
    rw [laid, lookup_mergeEntries (isKeyed_map_iff.mp htop).1, ih hlower, values_cons]
    cases lookup top key <;> rfl

/-- Mappings laid over one another are keyed, if each of them is. -/
theorem isKeyed_laid {layers : List (List (Value × Value))}
    (h : ∀ layer ∈ layers, IsKeyed (.map layer)) : IsKeyed (.map (laid layers)) := by
  induction layers with
  | nil => exact isKeyed_nil
  | cons top lower ih =>
    obtain ⟨htop, hlower⟩ := List.forall_mem_cons.mp h
    exact (ih hlower).mergeTo mergeDepth htop

/-- The values that keyed mappings give to a key are keyed. -/
theorem isKeyed_of_mem_values {layers : List (List (Value × Value))}
    (h : ∀ layer ∈ layers, IsKeyed (.map layer)) {key : Text} {v : Value}
    (hv : v ∈ values layers key) : v.IsKeyed := by
  obtain ⟨layer, hl, hv⟩ := List.mem_filterMap.mp hv
  obtain ⟨e, he, rfl⟩ := Option.map_eq_some_iff.mp hv
  exact (isKeyed_map_iff.mp (h layer hl)).2 e (List.mem_of_find?_eq_some he)

/-- The highest value stands as it is, if it or the next one is no mapping. -/
theorem stacked_of_plain {v : Value} {lower : List Value}
    (h : v.entries? = none ∨ lower.head?.bind entries? = none) :
    stacked (v :: lower) = some v := by
  rw [stacked]
  rcases h with h | h
  · rw [laidOver_of_plain _ _ h]
  · have hlower : (stacked lower).bind entries? = none := by
      cases lower with
      | nil => rfl
      | cons w r =>
        rw [List.head?_cons, Option.bind_some] at h
        rw [stacked, laidOver_of_plain _ _ h]
        exact h
    rw [laidOver_plain _ hlower]

/-- A name whose values are no mappings has in values laid over one another that of the highest
mapping with the name, as far down as the values are mappings. -/
theorem stacked_settled {vs : List Value} (hk : ∀ v ∈ vs, v.IsKeyed) {v : Value}
    (hv : vs.head? = some v) {es : List (Value × Value)} (hes : v.entries? = some es) :
    ∃ m, (stacked vs).bind entries? = some m ∧
      ∀ name, IsPlainIn name vs → lookup m name = settled name vs := by
  induction vs generalizing v es with
  | nil => cases hv
  | cons top lower ih =>
    cases hv
    obtain ⟨htop, hlower⟩ := List.forall_mem_cons.mp hk
    rw [stacked]
    cases hl : lower.head?.bind entries? with
    | none =>
      refine ⟨es, ?_, fun name _ => ?_⟩
      · have hstacked := stacked_of_plain (.inr hl) (v := top)
        rw [stacked] at hstacked
        rw [hstacked]
        exact hes
      · -- Nothing is settled below, since the next value hides the rest.
        have hnone : settled name lower = none := by
          cases lower with
          | nil => rfl
          | cons w r =>
            rw [List.head?_cons, Option.bind_some] at hl
            rw [settled, hl]
        rw [settled_cons hes, hnone, Option.or_none]
    | some ws =>
      -- The top is laid over a mapping, in which the name is settled by those below.
      obtain ⟨w, hw, hws⟩ := Option.bind_eq_some_iff.mp hl
      obtain ⟨m, hm, hlookup⟩ := ih hlower hw hws
      refine ⟨mergeTo (mergeDepth - 1) m es, ?_, fun name hplain => ?_⟩
      · rw [laidOver_map _ hm hes]
        rfl
      · obtain ⟨hplaintop, hplainlower⟩ := List.forall_mem_cons.mp hplain
        have hmerge := lookup_mergeTo (htop.entries hes).1 (mergeDepth - 2) m name
        rw [settled_cons hes, ← hlookup name hplainlower]
        refine hmerge.trans ?_
        cases hx : lookup es name with
        | none => rw [Option.none_or]
        | some x =>
          -- What the name has in the top is no mapping, so nothing is merged into it.
          have hplainx := laidOver_of_plain (mergeTo (mergeDepth - 2)) (lookup m name)
            (hplaintop es x hes hx)
          rw [Option.some_or]
          exact congrArg some hplainx

/-- What is settled for a name whose values are no mappings is no mapping. -/
theorem entries?_of_settled {name : Text} {vs : List Value} (h : IsPlainIn name vs) {w : Value}
    (hw : settled name vs = some w) : w.entries? = none := by
  induction vs with
  | nil => cases hw
  | cons top lower ih =>
    obtain ⟨htop, hlower⟩ := List.forall_mem_cons.mp h
    cases hes : top.entries? with
    | none =>
      rw [settled, hes] at hw
      cases hw
    | some es =>
      rw [settled_cons hes] at hw
      rcases Option.or_eq_some_iff.mp hw with hx | ⟨-, hx⟩
      · exact htop es w hes hx
      · exact ih hlower hx

/-- Values laid over one another give no mapping to a name that none of them gives one. -/
theorem isPlainIn_stacked {vs : List Value} (hk : ∀ v ∈ vs, v.IsKeyed) {name : Text}
    (h : IsPlainIn name vs) : IsPlainIn name (stacked vs).toList := by
  intro w hw es x hes hx
  rw [Option.mem_toList] at hw
  cases vs with
  | nil => cases hw
  | cons top lower =>
    cases htop : top.entries? with
    | none =>
      rw [stacked_of_plain (.inl htop)] at hw
      cases hw
      cases htop.symm.trans hes
    | some ts =>
      obtain ⟨m, hm, hlookup⟩ := stacked_settled hk rfl htop
      rw [hw, Option.bind_some] at hm
      cases hm.symm.trans hes
      exact entries?_of_settled h ((hlookup name h).symm.trans hx)

/-- Values laid over one another settle a name as they do one by one, and leave it to those below
otherwise, if the highest one is a mapping. -/
theorem settled_stacked {vs : List Value} (hk : ∀ v ∈ vs, v.IsKeyed) {name : Text}
    (h : IsPlainIn name vs) (below : List Value) :
    settled name ((stacked vs).toList ++ below) =
      if vs.head?.any (·.entries?.isNone) then none
      else (settled name vs).or (settled name below) := by
  cases vs with
  | nil => rfl
  | cons top lower =>
    rw [List.head?_cons, Option.any_some]
    cases htop : top.entries? with
    | none =>
      rw [stacked_of_plain (.inl htop), Option.toList_some, List.singleton_append, settled, htop]
      rfl
    | some ts =>
      obtain ⟨m, hm, hlookup⟩ := stacked_settled hk rfl htop
      obtain ⟨w, hw, hws⟩ := Option.bind_eq_some_iff.mp hm
      rw [hw, Option.toList_some, List.singleton_append, settled_cons hws, hlookup name h]
      rfl

end SurfaceAudit.Value
