import SurfaceAudit.Config.Merge
import Mathlib.Data.List.Nodup

/-!
# What a merge of mappings holds

The entries of a mapping have each text key once (`Value.KeysOnce`), and setting a key keeps that.
In a merge of two mappings, a text key has the value that the upper one lays over that of the lower
one (`Value.lookup_mergeTo`). A value is keyed if this holds of all mappings in it, also of those
that contain themselves, and merging keeps that too (`Value.IsKeyed.mergeTo`).
-/

namespace SurfaceAudit.Value

/-- A key is the same as a text exactly if it is that text. -/
theorem sameKey_text (v : Value) (t : Text) : v.sameKey (.text t) = v.isText t := by
  cases v <;> simp [sameKey, isText, text?, asInt?]

/-- A text is the same as a key exactly if the key is that text. -/
theorem text_sameKey (t : Text) (v : Value) : sameKey (.text t) v = v.isText t := by
  cases v <;> simp [sameKey, isText, text?, asInt?, eq_comm]

/-- A value is a given text exactly if it holds it. -/
theorem isText_iff {v : Value} {t : Text} : v.isText t = true ↔ v = .text t := by
  cases v <;> simp [isText, text?]

/-- The value of a text key is looked up like that of any other key. -/
theorem get?_text (es : List (Value × Value)) (t : Text) : get? es (.text t) = lookup es t := by
  unfold get? lookup
  simp only [sameKey_text]

/-- The value of a text key among entries is that of the first that has it. -/
theorem lookup_cons (k v : Value) (r : List (Value × Value)) (t : Text) :
    lookup ((k, v) :: r) t = if k.isText t then some v else lookup r t := by
  unfold lookup
  by_cases hk : k.isText t = true
  · simp [hk]
  · simp [hk]

/-- An entry that is found by a text has that text as its key. -/
theorem eq_of_find? {es : List (Value × Value)} {t : Text} {e : Value × Value}
    (h : es.find? (·.1.isText t) = some e) : e.1 = .text t := by
  have htext := List.find?_some h
  exact isText_iff.mp htext

/-- The value of a text key after a key was set. -/
theorem lookup_put (es : List (Value × Value)) (k v : Value) (t : Text) :
    lookup (put es k v) t = if k.isText t then some v else lookup es t := by
  unfold lookup put
  split
  · rename_i hany
    have hfst : (fun e : Value × Value => e.1.isText t) ∘
        (fun e : Value × Value => if e.1.sameKey k then (e.1, v) else e) =
          fun e => e.1.isText t := by
      funext e
      simp only [Function.comp_apply]
      split <;> rfl
    rw [List.find?_map, hfst]
    by_cases hk : k.isText t = true
    · -- The key is there, so the first entry that has it is found, with the new value.
      rw [isText_iff.mp hk] at hany ⊢
      obtain ⟨e, he⟩ := Option.isSome_iff_exists.mp (List.find?_isSome.mpr
        (by simpa [sameKey_text] using hany) :
          (es.find? fun e => e.1.isText t).isSome = true)
      have hsame : e.1.sameKey (.text t) = true := by
        rw [sameKey_text]
        exact isText_iff.mpr (eq_of_find? he)
      simp [he, hsame, isText_iff]
    · rw [if_neg hk]
      cases he : es.find? fun e => e.1.isText t with
      | none => rfl
      | some e =>
        simp [eq_of_find? he, text_sameKey, hk]
  · rename_i hany
    rw [List.find?_append]
    by_cases hk : k.isText t = true
    · have hnone : es.find? (fun e => e.1.isText t) = none := by
        rw [isText_iff.mp hk] at hany
        simpa [sameKey_text] using hany
      simp [hnone, hk]
    · simp [hk]

/-- Each text is a key once. -/
def KeysOnce {α : Type} (es : List (Value × α)) : Prop := (es.filterMap (·.1.text?)).Nodup

/-- The keys of the entries after the first are there once. -/
theorem KeysOnce.tail {e : Value × Value} {r : List (Value × Value)} (h : KeysOnce (e :: r)) :
    KeysOnce r := by
  unfold KeysOnce at h ⊢
  exact h.sublist ((List.sublist_cons_self e r).filterMap _)

/-- The key of the first entry is not among those of the others. -/
theorem KeysOnce.lookup_tail {t : Text} {v : Value} {r : List (Value × Value)}
    (h : KeysOnce ((.text t, v) :: r)) : lookup r t = none := by
  unfold KeysOnce at h
  change (t :: r.filterMap (·.1.text?)).Nodup at h
  rw [List.nodup_cons, List.mem_filterMap] at h
  unfold lookup
  rw [Option.map_eq_none_iff, List.find?_eq_none]
  exact fun e he het => h.1 ⟨e, he, by rw [isText_iff.mp het]; rfl⟩

instance {α : Type} (es : List (Value × α)) : Decidable (KeysOnce es) :=
  inferInstanceAs (Decidable (List.Nodup _))

/-- Entries whose keys are among those of others, in their order, have them once if the others
have. -/
theorem KeysOnce.of_sublist {α β : Type} {es : List (Value × α)} {es' : List (Value × β)}
    (h : KeysOnce es) (hk : (es'.map (·.1)).Sublist (es.map (·.1))) : KeysOnce es' := by
  have hfst {γ : Type} (xs : List (Value × γ)) :
      xs.filterMap (·.1.text?) = (xs.map (·.1)).filterMap text? := by
    rw [List.filterMap_map]
    rfl
  unfold KeysOnce at h ⊢
  rw [hfst] at h ⊢
  exact h.sublist (hk.filterMap text?)

/-- Entries with the same keys have them once alike. -/
theorem KeysOnce.of_keys {α β : Type} {es : List (Value × α)} {es' : List (Value × β)}
    (h : KeysOnce es) (hk : es'.map (·.1) = es.map (·.1)) : KeysOnce es' :=
  h.of_sublist (hk ▸ List.Sublist.refl _)

/-- Keys stay apart if one is set where it is, or put at the end if it is nowhere. -/
theorem KeysOnce.set {α : Type} {es : List (Value × α)} (h : KeysOnce es) (k : Value) (v : α) :
    KeysOnce (if es.any (·.1.sameKey k) then
      es.map fun e => if e.1.sameKey k then (e.1, v) else e else es ++ [(k, v)]) := by
  split
  · refine h.of_keys ?_
    rw [List.map_map]
    congr 1
    funext e
    simp only [Function.comp_apply]
    split <;> rfl
  · rename_i hany
    unfold KeysOnce
    rw [List.filterMap_append]
    refine List.Nodup.append h (by cases k <;> simp [text?]) fun t ht htk => hany ?_
    -- A text that is already a key is the same as the new one.
    obtain ⟨e, he, het⟩ := List.mem_filterMap.mp ht
    obtain ⟨e', he', het'⟩ := List.mem_filterMap.mp htk
    rw [List.mem_singleton.mp he'] at het'
    refine List.any_eq_true.mpr ⟨e, he, ?_⟩
    have hk : k = .text t := isText_iff.mp (beq_iff_eq.mpr het')
    rw [hk, sameKey_text]
    exact beq_iff_eq.mpr het

/-- Setting a key keeps keys apart. -/
theorem KeysOnce.put {es : List (Value × Value)} (h : KeysOnce es) (k v : Value) :
    KeysOnce (put es k v) := h.set k v

/-- A merge keeps keys apart. -/
theorem KeysOnce.mergeTo {base : List (Value × Value)} (h : KeysOnce base) (depth : Nat)
    (upper : List (Value × Value)) : KeysOnce (mergeTo (depth + 1) base upper) := by
  unfold Value.mergeTo
  induction upper generalizing base with
  | nil => exact h
  | cons e r ih => exact ih (h.put e.1 _)

/-- What is no mapping is laid over another value as it is. -/
theorem laidOver_of_plain
    (merge : List (Value × Value) → List (Value × Value) → List (Value × Value))
    (old : Option Value) {v : Value} (h : v.entries? = none) : laidOver merge old v = v := by
  unfold laidOver
  rw [h]
  cases old.bind entries? <;> rfl

/-- A value is laid over what is no mapping as it is. -/
theorem laidOver_plain
    (merge : List (Value × Value) → List (Value × Value) → List (Value × Value))
    {old : Option Value} (h : old.bind entries? = none) (v : Value) :
    laidOver merge old v = v := by
  unfold laidOver
  rw [h]

/-- A mapping laid over a mapping is merged into it. -/
theorem laidOver_map
    (merge : List (Value × Value) → List (Value × Value) → List (Value × Value))
    {old : Option Value} {v : Value} {lower upper : List (Value × Value)}
    (hold : old.bind entries? = some lower) (h : v.entries? = some upper) :
    laidOver merge old v = .map (merge lower upper) := by
  unfold laidOver
  rw [hold, h]

/-- In a merge, the value of a text key is that of the upper mapping laid over that of the lower
one. -/
theorem lookup_mergeTo {upper : List (Value × Value)} (h : KeysOnce upper) (depth : Nat)
    (base : List (Value × Value)) (t : Text) : lookup (mergeTo (depth + 1) base upper) t =
      match lookup upper t with
      | none => lookup base t
      | some v => some (laidOver (mergeTo depth) (lookup base t) v) := by
  unfold mergeTo
  induction upper generalizing base with
  | nil => rfl
  | cons e r ih =>
    obtain ⟨k, v⟩ := e
    rw [List.foldl_cons, ih h.tail, lookup_put, lookup_cons]
    by_cases hk : k.isText t = true
    · -- The key is not among the entries that are left.
      cases isText_iff.mp hk
      rw [h.lookup_tail, if_pos hk, if_pos hk, get?_text]
    · rw [if_neg hk, if_neg hk]

/-- The value is neither a mapping nor a container that contains itself. -/
def IsPlain (v : Value) : Prop :=
  (∀ es, v ≠ .map es) ∧ ∀ drawing cells i, v ≠ .knot drawing cells i

instance : DecidablePred IsPlain
  | .map es => .isFalse fun h => h.1 es rfl
  | .knot drawing cells i => .isFalse fun h => h.2 drawing cells i rfl
  | .null | .bool _ | .int _ | .real _ | .text _ | .bytes _ | .date _ | .moment _ | .list _
  | .tuple _ | .set _ | .again _ | .link _ => .isTrue (by simp [IsPlain])

/-- What is plain is no mapping. -/
theorem IsPlain.entries?_eq {v : Value} (h : v.IsPlain) : v.entries? = none := by
  cases v with
  | map es => exact absurd rfl (h.1 es)
  | knot drawing cells i => exact absurd rfl (h.2 drawing cells i)
  | _ => rfl

/-- Every mapping that is reached through mappings has each text key once. -/
inductive IsKeyed : Value → Prop where
  /-- A mapping. -/
  | map {es : List (Value × Value)} (once : KeysOnce es) (inner : ∀ e ∈ es, IsKeyed e.2) :
    IsKeyed (.map es)
  /-- A container that contains itself. -/
  | knot {drawing : Value} {cells : List (Value × Value)} {i : Nat}
    (inner : ∀ c ∈ cells, IsKeyed c.2) : IsKeyed (.knot drawing cells i)
  /-- Anything else. -/
  | other {v : Value} (h : v.IsPlain) : IsKeyed v

/-- Entries with their links replaced. -/
theorem tieEntries_eq (cells es : List (Value × Value)) :
    tieEntries cells es = es.map fun e => (tie cells e.1, tie cells e.2) := by
  induction es with
  | nil => rfl
  | cons e r ih => rw [tieEntries, ih, List.map_cons]

/-- Replacing links changes no text and makes none. -/
theorem text?_tie (cells : List (Value × Value)) (v : Value) : (tie cells v).text? = v.text? := by
  cases v with
  | link i =>
    rw [tie]
    split <;> rfl
  | _ => rw [tie] <;> simp [text?]

/-- A mapping without mappings in it is keyed, if it has each text key once. -/
theorem IsKeyed.of_plain {es : List (Value × Value)} (once : KeysOnce es)
    (h : ∀ e ∈ es, e.2.IsPlain) : IsKeyed (.map es) := .map once fun e he => .other (h e he)

/-- A mapping without entries is keyed. -/
theorem isKeyed_nil : IsKeyed (.map []) := .of_plain (by decide) (by simp)

/-- Replacing links keeps keys apart. -/
theorem IsKeyed.tie {cells : List (Value × Value)} (hc : ∀ c ∈ cells, IsKeyed c.2) {v : Value}
    (h : IsKeyed v) : IsKeyed (tie cells v) := by
  induction h with
  | @map es once _ ih =>
    rw [Value.tie, tieEntries_eq]
    refine .map ?_ ?_
    · unfold KeysOnce at once ⊢
      rw [List.filterMap_map]
      simpa only [Function.comp_def, text?_tie] using once
    · intro e he
      obtain ⟨x, hx, rfl⟩ := List.mem_map.mp he
      exact ih x hx
  | knot inner _ =>
    rw [Value.tie] <;> first | exact .knot inner | simp
  | @other v hv =>
    -- Of the values that are no mappings only links are replaced, each by a cell that keeps keys
    -- apart.
    cases v with
    | link i =>
      rw [Value.tie]
      split
      · exact .knot hc
      · exact .other (by simp [IsPlain])
    | map es => exact absurd rfl (hv.1 es)
    | knot drawing cells i => exact absurd rfl (hv.2 drawing cells i)
    | _ => rw [Value.tie] <;> first | exact .other (by simp [IsPlain]) | simp

/-- The entries of a value have each text key once, and so have mappings under the keys. -/
theorem IsKeyed.entries {v : Value} (h : IsKeyed v) {es : List (Value × Value)}
    (he : v.entries? = some es) : KeysOnce es ∧ ∀ e ∈ es, IsKeyed e.2 := by
  -- The outermost layer of a knot is that of one of its cells, which is keyed as the others are.
  have hlayer : IsKeyed v.layer := by
    cases h with
    | map once inner => exact .map once inner
    | @knot drawing cells i inner =>
      rw [layer]
      split
      · rename_i drawing body hbody
        exact (inner _ (List.mem_of_getElem? hbody)).tie inner
      · exact .other (by simp [IsPlain])
    | @other v hv =>
      rw [layer]
      · exact .other hv
      · exact hv.2
  unfold entries? at he
  split at he
  · rename_i hl
    cases he
    rw [hl] at hlayer
    cases hlayer with
    | map once inner => exact ⟨once, inner⟩
    | other hv => exact absurd rfl (hv.1 _)
  · cases he

/-- The value of a key is that of one of the entries. -/
theorem exists_of_get? {es : List (Value × Value)} {k v : Value} (h : get? es k = some v) :
    ∃ e ∈ es, e.2 = v := by
  obtain ⟨e, he, hv⟩ := Option.map_eq_some_iff.mp h
  exact ⟨e, List.mem_of_find?_eq_some he, hv⟩

/-- After a key was set, each value is the new one or was there. -/
theorem forall_mem_put {P : Value → Prop} {es : List (Value × Value)} (h : ∀ e ∈ es, P e.2)
    (k : Value) {v : Value} (hv : P v) : ∀ e ∈ put es k v, P e.2 := by
  unfold put
  split
  · intro e he
    obtain ⟨x, hx, rfl⟩ := List.mem_map.mp he
    split
    · exact hv
    · exact h x hx
  · intro e he
    rcases List.mem_append.mp he with he | he
    · exact h e he
    · rw [List.mem_singleton.mp he]
      exact hv

/-- A mapping that is keyed has each text key once, and so have the mappings in it. -/
theorem isKeyed_map_iff {es : List (Value × Value)} :
    IsKeyed (.map es) ↔ KeysOnce es ∧ ∀ e ∈ es, IsKeyed e.2 :=
  ⟨fun h => h.entries rfl, fun h => .map h.1 h.2⟩

/-- A merge of mappings has each text key once, and so have the mappings in it. -/
theorem IsKeyed.mergeTo (depth : Nat) {base upper : List (Value × Value)} (hb : IsKeyed (.map base))
    (hu : IsKeyed (.map upper)) : IsKeyed (.map (mergeTo depth base upper)) := by
  induction depth generalizing base upper with
  | zero => exact hu
  | succ depth ih =>
    rw [isKeyed_map_iff] at hb hu ⊢
    refine ⟨hb.1.mergeTo depth upper, ?_⟩
    have hinner := hu.2
    clear hu
    unfold Value.mergeTo
    induction upper generalizing base with
    | nil => exact hb.2
    | cons e r ihr =>
      obtain ⟨he, hr⟩ := List.forall_mem_cons.mp hinner
      have hlaid : IsKeyed (laidOver (Value.mergeTo depth) (get? base e.1) e.2) := by
        unfold laidOver
        split
        · rename_i lower more hlower hmore
          -- Both mappings are keyed, the lower one as a value of the base.
          obtain ⟨v, hv, hlower⟩ := Option.bind_eq_some_iff.mp hlower
          obtain ⟨x, hx, rfl⟩ := exists_of_get? hv
          exact ih (isKeyed_map_iff.mpr ((hb.2 x hx).entries hlower))
            (isKeyed_map_iff.mpr (he.entries hmore))
        · exact he
      exact ihr ⟨hb.1.put e.1 _, forall_mem_put hb.2 e.1 hlaid⟩ hr

end SurfaceAudit.Value
