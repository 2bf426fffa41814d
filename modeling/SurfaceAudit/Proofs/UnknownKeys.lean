import SurfaceAudit.Proofs.Resolution

/-!
# Keys that are no settings

A section of a layer may gain a key (`Config.Gains`). If what lies above is a mapping each, the key
comes to stand in the section of the settings, which gives all other names what it gave them before
(`Value.GainedIn.append`); otherwise the section stays as it is (`Value.stacked_append_of_plain`). A
configuration is read off the names of its settings alone, but four of the sections are checked for
reserved names too. So a key that is no setting changes nothing, or the configuration is not loaded
(`unknown_key_passed_over`).
-/

namespace SurfaceAudit

namespace Value

/-! ## Entries that gain a key -/

/-- Some key is no text. -/
def HasOddKey (es : List (Value × Value)) : Prop := ∃ x ∈ es, x.1.text? = none

/-- A key that was set is odd, or one of the others is. -/
theorem hasOddKey_put (es : List (Value × Value)) (k v : Value) :
    HasOddKey (put es k v) ↔ HasOddKey es ∨ k.text? = none := by
  unfold put HasOddKey
  split
  · rename_i hany
    obtain ⟨y, hy, hsame⟩ := List.any_eq_true.mp hany
    have hfst (e : Value × Value) : (if e.1.sameKey k then (e.1, v) else e).1 = e.1 := by
      split <;> rfl
    simp only [List.mem_map, exists_exists_and_eq_and, hfst]
    rw [or_iff_left_of_imp]
    intro hk
    refine ⟨y, hy, ?_⟩
    -- A text is the same as a text only.
    cases hy' : y.1.text? with
    | none => rfl
    | some t =>
      have hyt : y.1 = .text t := isText_iff.mp (beq_iff_eq.mpr hy')
      rw [hyt, text_sameKey] at hsame
      rw [isText_iff.mp hsame] at hk
      cases hk
  · simp only [List.mem_append, List.mem_singleton, or_and_right, exists_or, exists_eq_left]

/-- A key of a merge is odd if one of the keys that are merged is. -/
theorem hasOddKey_mergeTo (depth : Nat) (base upper : List (Value × Value)) :
    HasOddKey (mergeTo (depth + 1) base upper) ↔ HasOddKey base ∨ HasOddKey upper := by
  unfold mergeTo
  induction upper generalizing base with
  | nil => simp [HasOddKey]
  | cons e r ih =>
    rw [List.foldl_cons, ih, hasOddKey_put, or_assoc]
    simp [HasOddKey]

/-- Entries gain a key: it is there, and for all other keys nothing changes. -/
structure Gained (name : Text) (es es' : List (Value × Value)) : Prop where
  /-- The other texts have the values that they had. -/
  apart : ∀ t, t ≠ name → lookup es' t = lookup es t
  /-- Keys that are no texts are neither lost nor gained. -/
  odd : HasOddKey es' ↔ HasOddKey es
  /-- The key is there. -/
  there : lookup es' name ≠ none

/-- Entries gain a key that is set. -/
theorem gained_put (es : List (Value × Value)) (name : Text) (v : Value) :
    Gained name es (put es (.text name) v) where
  apart t ht := by rw [lookup_put, if_neg (by simp [isText, text?, Ne.symm ht])]
  odd := by simp [hasOddKey_put, text?]
  there := by simp [lookup_put, isText, text?]

/-- The entries of a value that may be missing. -/
def entriesIn : Option Value → Option (List (Value × Value))
  | none => some []
  | some v => v.entries?

/-- The entries of a mapping that is laid over another one, or over nothing. -/
structure LaidOver (b u r : List (Value × Value)) : Prop where
  /-- A text has the value of the upper mapping laid over that of the lower one. -/
  lookup_eq : ∀ t, lookup r t = match lookup u t with
    | none => lookup b t
    | some v => some (laidOver (mergeTo (mergeDepth - 2)) (lookup b t) v)
  /-- The odd keys are those of both. -/
  odd : HasOddKey r ↔ HasOddKey b ∨ HasOddKey u

/-- A mapping that is laid over another one, or over nothing, has the entries of both. -/
theorem exists_laidOver {o : Option Value} {v : Value} {b u : List (Value × Value)}
    (ho : entriesIn o = some b) (hv : v.entries? = some u) (hu : KeysOnce u) :
    ∃ r, (laidOver (mergeTo (mergeDepth - 1)) o v).entries? = some r ∧ LaidOver b u r := by
  cases o with
  | none =>
    cases ho
    refine ⟨u, by rw [laidOver_plain _ rfl]; exact hv, fun t => ?_, by simp [HasOddKey]⟩
    cases lookup u t <;> rfl
  | some w =>
    have hmap : laidOver (mergeTo (mergeDepth - 1)) (some w) v =
        .map (mergeTo (mergeDepth - 1) b u) := laidOver_map _ (show entries? w = some b from ho) hv
    exact ⟨_, congrArg entries? hmap, lookup_mergeTo hu (mergeDepth - 2) b,
      hasOddKey_mergeTo (mergeDepth - 2) b u⟩

/-- Where the lower mapping gains a key, so does what is laid over it. -/
theorem Gained.laidOver_lower {name : Text} {b b' u r r' : List (Value × Value)}
    (h : Gained name b b') (hr : LaidOver b u r) (hr' : LaidOver b' u r') : Gained name r r' where
  apart t ht := by rw [hr.lookup_eq, hr'.lookup_eq, h.apart t ht]
  odd := by rw [hr.odd, hr'.odd, h.odd]
  there := by
    rw [hr'.lookup_eq]
    cases lookup u name with
    | none => exact h.there
    | some _ => simp

/-- Where the upper mapping gains a key, so does what it is laid over. -/
theorem Gained.laidOver_upper {name : Text} {b u u' r r' : List (Value × Value)}
    (h : Gained name u u') (hr : LaidOver b u r) (hr' : LaidOver b u' r') : Gained name r r' where
  apart t ht := by rw [hr.lookup_eq, hr'.lookup_eq, h.apart t ht]
  odd := by rw [hr.odd, hr'.odd, h.odd]
  there := by
    rw [hr'.lookup_eq]
    cases hx : lookup u' name with
    | none => exact absurd hx h.there
    | some _ => simp

/-- A mapping that was missing adds its key to what is below. -/
theorem Gained.laidOver_nil {name : Text} {b u r : List (Value × Value)}
    (h : Gained name [] u) (hr : LaidOver b u r) : Gained name b r :=
  h.laidOver_upper ⟨fun _ => rfl, by simp [HasOddKey]⟩ hr

/-! ## Values that gain a key -/

/-- A mapping gains a key, or a mapping with it comes to be. -/
def GainedIn (name : Text) (o o' : Option Value) : Prop :=
  ∃ b b', entriesIn o = some b ∧ entriesIn o' = some b' ∧ Gained name b b'

variable {name : Text}

/-- Where the highest of some values gains a key, so do the values laid over one another. -/
theorem GainedIn.stacked {o : Option Value} {v : Value} (h : GainedIn name o (some v))
    (hk : ∀ w ∈ o.toList ++ [v], w.IsKeyed) {lower : List Value}
    (hlower : o = none → (entriesIn (stacked lower)).isSome = true) :
    GainedIn name (stacked (o.toList ++ lower)) (stacked (v :: lower)) := by
  obtain ⟨b, u', ho, hv, hgained⟩ := h
  have hu' : KeysOnce u' := (IsKeyed.entries (hk v (by simp)) hv).1
  cases o with
  | none =>
    obtain ⟨w, hw⟩ := Option.isSome_iff_exists.mp (hlower rfl)
    obtain ⟨r, hr, hlaid⟩ := exists_laidOver hw hv hu'
    cases ho
    exact ⟨w, r, hw, hr, hgained.laidOver_nil hlaid⟩
  | some x =>
    have hu : KeysOnce b := (IsKeyed.entries (hk x (by simp)) ho).1
    cases hw : entriesIn (Value.stacked lower) with
    | some w =>
      obtain ⟨r, hr, hlaid⟩ := exists_laidOver hw ho hu
      obtain ⟨r', hr', hlaid'⟩ := exists_laidOver hw hv hu'
      exact ⟨r, r', hr, hr', hgained.laidOver_upper hlaid hlaid'⟩
    | none =>
      -- What is below is no mapping, so that both stand as they are.
      have hplain : (Value.stacked lower).bind entries? = none := by
        cases hs : Value.stacked lower with
        | none => rfl
        | some y =>
          rw [hs] at hw
          exact hw
      refine ⟨b, u', ?_, ?_, hgained⟩
      · change (laidOver _ (Value.stacked lower) x).entries? = some b
        rw [laidOver_plain _ hplain]
        exact ho
      · change (laidOver _ (Value.stacked lower) v).entries? = some u'
        rw [laidOver_plain _ hplain]
        exact hv

/-- Where values laid over one another gain a key, so do they below mappings. -/
theorem GainedIn.append {below below' : List Value}
    (h : GainedIn name (Value.stacked below) (Value.stacked below')) {above : List Value}
    (hk : ∀ w ∈ above, w.IsKeyed) (hmaps : ∀ w ∈ above, w.entries?.isSome = true) :
    GainedIn name (Value.stacked (above ++ below)) (Value.stacked (above ++ below')) := by
  induction above with
  | nil => exact h
  | cons w above ih =>
    obtain ⟨hkw, hk⟩ := List.forall_mem_cons.mp hk
    obtain ⟨hw, hmaps⟩ := List.forall_mem_cons.mp hmaps
    obtain ⟨b, b', hb, hb', hgained⟩ := ih hk hmaps
    obtain ⟨u, hu⟩ := Option.isSome_iff_exists.mp hw
    have honce := (hkw.entries hu).1
    obtain ⟨r, hr, hlaid⟩ := exists_laidOver hb hu honce
    obtain ⟨r', hr', hlaid'⟩ := exists_laidOver hb' hu honce
    exact ⟨r, r', hr, hr', hgained.laidOver_lower hlaid hlaid'⟩

/-- The value of a key in a keyed mapping is keyed. -/
theorem isKeyed_of_lookup {es : List (Value × Value)} (hk : IsKeyed (.map es)) {key : Text}
    {v : Value} (h : lookup es key = some v) : v.IsKeyed := by
  obtain ⟨e, he, rfl⟩ := Option.map_eq_some_iff.mp h
  exact (isKeyed_map_iff.mp hk).2 e (List.mem_of_find?_eq_some he)

/-- Values laid over one another are a mapping if the highest one is, and nothing if there is
none. -/
theorem isSome_entriesIn_stacked {vs : List Value} (hk : ∀ v ∈ vs, v.IsKeyed)
    (h : ∀ w ∈ vs.head?, w.entries?.isSome = true) : (entriesIn (stacked vs)).isSome = true := by
  cases vs with
  | nil => rfl
  | cons v lower =>
    obtain ⟨es, hes⟩ := Option.isSome_iff_exists.mp (h v rfl)
    obtain ⟨m, hm, -⟩ := stacked_settled hk rfl hes
    obtain ⟨w, hw, hwm⟩ := Option.bind_eq_some_iff.mp hm
    rw [hw]
    exact Option.isSome_iff_exists.mpr ⟨m, hwm⟩

/-- What lies below a value that is no mapping does not count. -/
theorem stacked_append_of_plain {above : List Value} {w : Value} (hw : w ∈ above)
    (hplain : w.entries? = none) (below below' : List Value) :
    stacked (above ++ below) = stacked (above ++ below') := by
  induction above with
  | nil => cases hw
  | cons x above ih =>
    rw [List.cons_append, List.cons_append]
    rcases List.mem_cons.mp hw with rfl | hw
    · rw [stacked_of_plain (.inl hplain), stacked_of_plain (.inl hplain)]
    · rw [stacked, stacked, ih hw]

end Value

namespace Config

/-- A layer gains a key in a section, which is made if it is missing. -/
def Gains (part name : Text) (v : Value) (layer layer' : List (Value × Value)) : Prop :=
  ∃ es, Value.entriesIn (Value.lookup layer part) = some es ∧
    layer' = Value.put layer (.text part) (.map (Value.put es (.text name) v))

variable {part name : Text} {v : Value} {layer layer' : List (Value × Value)}

/-- Another key of the layer has its value as before. -/
theorem Gains.lookup_eq (h : Gains part name v layer layer') {key : Text} (hkey : key ≠ part) :
    Value.lookup layer' key = Value.lookup layer key := by
  obtain ⟨es, -, rfl⟩ := h
  rw [Value.lookup_put, if_neg (by simp [Value.isText, Value.text?, Ne.symm hkey])]

/-- The section of the layer gains the key. -/
theorem Gains.gainedIn (h : Gains part name v layer layer') : ∃ w,
    Value.lookup layer' part = some w ∧
      Value.GainedIn name (Value.lookup layer part) (some w) := by
  obtain ⟨es, hes, rfl⟩ := h
  refine ⟨.map (Value.put es (.text name) v), ?_, es, _, hes, rfl, Value.gained_put es name v⟩
  rw [Value.lookup_put, if_pos (by simp [Value.isText, Value.text?])]

/-- A layer that gains a key has each text key once, if the value has. -/
theorem Gains.isKeyed (h : Gains part name v layer layer') (hv : v.IsKeyed)
    (hk : Value.IsKeyed (.map layer)) : Value.IsKeyed (.map layer') := by
  obtain ⟨es, hes, rfl⟩ := h
  obtain ⟨honce, hinner⟩ := Value.isKeyed_map_iff.mp hk
  have hsection : Value.KeysOnce es ∧ ∀ e ∈ es, Value.IsKeyed e.2 := by
    cases hw : Value.lookup layer part with
    | none =>
      rw [hw] at hes
      cases hes
      exact ⟨by decide, by simp⟩
    | some w =>
      rw [hw] at hes
      exact (Value.isKeyed_of_lookup hk hw).entries hes
  have hsection' : Value.IsKeyed (.map (Value.put es (.text name) v)) :=
    .map (hsection.1.put _ _) (Value.forall_mem_put hsection.2 _ hv)
  exact .map (honce.put _ _) (Value.forall_mem_put hinner _ hsection')

/-! ## Sections that gain a key -/

/-- The reserved names among keys are those that have a value. -/
theorem mem_reservedNames_iff {es : List (Value × Value)} {t : Text} :
    t ∈ es.filterMap (fun e => e.1.text?.filter reserved.contains) ↔
      t ∈ reserved ∧ Value.lookup es t ≠ none := by
  have hkey (x : Value × Value) : x.1.text?.filter reserved.contains = some t ↔
      x.1.isText t = true ∧ t ∈ reserved := by
    rw [Option.filter_eq_some_iff, List.contains_iff_mem, Value.isText, beq_iff_eq]
  have hlookup : Value.lookup es t ≠ none ↔ ∃ x ∈ es, x.1.isText t = true := by
    unfold Value.lookup
    rw [ne_eq, Option.map_eq_none_iff, List.find?_eq_none]
    simp
  simp only [List.mem_filterMap, hkey, hlookup]
  constructor
  · rintro ⟨x, hx, hxt, ht⟩
    exact ⟨ht, x, hx, hxt⟩
  · rintro ⟨ht, x, hx, hxt⟩
    exact ⟨x, hx, hxt, ht⟩

/-- Where all keys are texts, the check of names fails for the first one that is reserved. -/
theorem checkNames_eq {es : List (Value × Value)} (h : ¬Value.HasOddKey es) : checkNames es =
    match es.filterMap (fun e => e.1.text?.filter reserved.contains) with
    | [] => .ok ()
    | name :: _ => .error (.kind (.unknownSetting name)) := by
  unfold checkNames
  have hthen {x : Attempt PUnit} {next : PUnit → Attempt Unit} (hx : x = .ok ()) :
      (x >>= next) = next () := by rw [hx]; rfl
  refine (hthen ?_).trans rfl
  -- The loop passes over keys that are texts.
  induction es with
  | nil => rfl
  | cons x r ih =>
    obtain ⟨k, v⟩ := x
    have hr : ¬Value.HasOddKey r := fun ⟨y, hy, hodd⟩ => h ⟨y, List.mem_cons_of_mem _ hy, hodd⟩
    rw [List.forIn_cons]
    cases k with
    | text t => exact ih hr
    | _ => exact absurd ⟨_, List.mem_cons_self, rfl⟩ h

/-- Entries that pass the check of names have no odd key. -/
theorem not_hasOddKey_of_checkNames {es : List (Value × Value)} (h : checkNames es = .ok ()) :
    ¬Value.HasOddKey es := by
  unfold checkNames at h
  obtain ⟨_, hloop, -⟩ := Attempt.bind_eq_ok_iff.mp h
  clear h
  -- The loop ends at a key that is no text.
  induction es with
  | nil =>
    rintro ⟨x, hx, -⟩
    cases hx
  | cons x r ih =>
    obtain ⟨k, v⟩ := x
    rw [List.forIn_cons] at hloop
    cases k with
    | text t =>
      rintro ⟨x, hx, hodd⟩
      rcases List.mem_cons.mp hx with rfl | hx
      · cases hodd
      · exact ih hloop ⟨x, hx, hodd⟩
    | _ => cases hloop

/-- Entries that pass the check of names have no reserved key. -/
theorem lookup_reserved_of_checkNames {es : List (Value × Value)} (h : checkNames es = .ok ())
    {t : Text} (ht : t ∈ reserved) : Value.lookup es t = none := by
  rw [checkNames_eq (not_hasOddKey_of_checkNames h)] at h
  split at h
  · rename_i hnil
    by_contra hsome
    exact absurd (hnil ▸ mem_reservedNames_iff.mpr ⟨ht, hsome⟩) List.not_mem_nil
  · cases h

/-- Where the keys of entries pass the check of names and they gain one that is not reserved, they
pass again. -/
theorem checkNames_gained {es es' : List (Value × Value)} (h : Value.Gained name es es')
    (hes : checkNames es = .ok ()) : checkNames es' =
      if name ∈ reserved then .error (.kind (.unknownSetting name)) else .ok () := by
  have hodd := not_hasOddKey_of_checkNames hes
  rw [checkNames_eq (fun hodd' => hodd (h.odd.mp hodd'))]
  -- The check stops at the first reserved name, and there is at most one: the others passed before.
  have hmem {t : Text} : t ∈ es'.filterMap (fun e => e.1.text?.filter reserved.contains) ↔
      t ∈ reserved ∧ t = name := by
    rw [mem_reservedNames_iff]
    refine and_congr_right fun ht => ?_
    by_cases hname : t = name
    · exact iff_of_true (hname ▸ h.there) hname
    · rw [h.apart t hname, lookup_reserved_of_checkNames hes ht]
      simp [hname]
  split
  · rename_i hnil
    rw [hnil] at hmem
    rw [if_neg fun hname => absurd (hmem.mpr ⟨hname, rfl⟩) List.not_mem_nil]
  · rename_i t r hcons
    obtain ⟨ht, rfl⟩ := hmem.mp (hcons ▸ List.mem_cons_self)
    rw [if_pos ht]

/-- Two settings that give the same values to texts describe the same configuration. -/
theorem ofSettings_congr {s s' : List (Value × Value)}
    (h : ∀ t, Value.lookup s' t = Value.lookup s t) : ofSettings s' = ofSettings s := by
  have hfield (t : Text) : Value.field s' t = Value.field s t := by
    rw [Value.field, Value.field, h]
  unfold ofSettings sectionOf
  simp only [hfield]

/-- Another section of the settings is as before, if the settings differ in one only. -/
theorem sectionOf_congr {s s' : List (Value × Value)} {part : Text}
    (h : Value.lookup s' part = Value.lookup s part) : sectionOf s' part = sectionOf s part := by
  unfold sectionOf Value.field
  rw [h]

/-- A section is had where its value is a mapping or missing. -/
theorem sectionOf_of_entriesIn {s : List (Value × Value)} {part : Text} {es : List (Value × Value)}
    (h : Value.entriesIn (Value.lookup s part) = some es) : sectionOf s part = .ok es := by
  cases hv : Value.lookup s part with
  | none =>
    rw [hv] at h
    cases h
    exact sectionOf_of_null (.inl hv)
  | some v =>
    rw [hv] at h
    exact sectionOf_of_entries hv h

/-- The names of a section that is checked have passed the check, where settings describe a
configuration. -/
theorem checkNames_of_ofSettings {s : List (Value × Value)} {c : Config} (h : ofSettings s = .ok c)
    {part : Text} (hpart : part ∈ checkedNames) {es : List (Value × Value)}
    (hes : sectionOf s part = .ok es) : checkNames es = .ok () := by
  obtain ⟨scanners, _, performance, _, output, logging, hs, hcs, -, hp, hcp, -, ho, hco, hl, hcl,
    -⟩ := ofSettings_eq_ok_iff.mp h
  simp only [checkedNames, List.mem_cons, List.not_mem_nil, or_false] at hpart
  rcases hpart with rfl | rfl | rfl | rfl
  · exact Except.ok.inj (hs.symm.trans hes) ▸ hcs
  · exact Except.ok.inj (hp.symm.trans hes) ▸ hcp
  · exact Except.ok.inj (ho.symm.trans hes) ▸ hco
  · exact Except.ok.inj (hl.symm.trans hes) ▸ hcl

/-- The sections of settings can be had, where settings describe a configuration. -/
theorem exists_sectionOf_of_ofSettings {s : List (Value × Value)} {c : Config}
    (h : ofSettings s = .ok c) {part : Text} (hpart : part ∈ partNames) :
    ∃ es, sectionOf s part = .ok es := by
  obtain ⟨scanners, files, performance, gate, output, logging, hs, -, hf, hp, -, hg, ho, -, hl, -,
    -⟩ := ofSettings_eq_ok_iff.mp h
  simp only [partNames, List.mem_cons, List.not_mem_nil, or_false] at hpart
  rcases hpart with rfl | rfl | rfl | rfl | rfl | rfl
  · exact ⟨scanners, hs⟩
  · exact ⟨files, hf⟩
  · exact ⟨performance, hp⟩
  · exact ⟨gate, hg⟩
  · exact ⟨output, ho⟩
  · exact ⟨logging, hl⟩

/-- Two sections agree on the settings that there are. -/
def AgreeOn (part : Text) (es es' : List (Value × Value)) : Prop :=
  ∀ n, (({} : Config).setting? part n).isSome = true → Value.lookup es' n = Value.lookup es n

/-- Sections that agree give a setting the same value. -/
theorem AgreeOn.setting_eq {part : Text} {es es' : List (Value × Value)} (h : AgreeOn part es es')
    (n : Text) (otherwise : Value) (hn : (({} : Config).setting? part n).isSome = true) :
    setting es' n otherwise = setting es n otherwise := by
  rw [setting, setting, h n hn]

/-- Settings whose sections agree, and pass the checks, describe the same configuration. -/
theorem ofSettings_eq_ok_of_agreeOn {s s' : List (Value × Value)} {c : Config}
    (h : ofSettings s = .ok c) (hmode : Value.field s' "scan_mode" = Value.field s "scan_mode")
    (hparts : ∀ part ∈ partNames, ∀ es, sectionOf s part = .ok es →
      ∃ es', sectionOf s' part = .ok es' ∧ AgreeOn part es es' ∧
        (part ∈ checkedNames → checkNames es' = .ok ())) : ofSettings s' = .ok c := by
  obtain ⟨scanners, files, performance, gate, output, logging, hs, -, hf, hp, -, hg, ho, -, hl, -,
    rfl⟩ := ofSettings_eq_ok_iff.mp h
  obtain ⟨scanners', hs', has, hcs⟩ := hparts "scanners" (by decide) scanners hs
  obtain ⟨files', hf', haf, -⟩ := hparts "files" (by decide) files hf
  obtain ⟨performance', hp', hap, hcp⟩ := hparts "performance" (by decide) performance hp
  obtain ⟨gate', hg', hag, -⟩ := hparts "gate" (by decide) gate hg
  obtain ⟨output', ho', hao, hco⟩ := hparts "output" (by decide) output ho
  obtain ⟨logging', hl', hal, hcl⟩ := hparts "logging" (by decide) logging hl
  -- Sections that agree give each field its value, so the parts are the same one by one.
  have hscanners : scannersOf scanners' = scannersOf scanners := by
    refine ScannerSettings.mk.injEq .. |>.mpr ⟨?_, ?_, ?_, ?_, ?_, ?_, ?_⟩ <;>
      exact has.setting_eq _ _ (by decide +kernel)
  have hfiles : filesOf files' = filesOf files := by
    refine FileSettings.mk.injEq .. |>.mpr ⟨?_, ?_, ?_, ?_⟩ <;>
      exact haf.setting_eq _ _ (by decide +kernel)
  have hgate : gateOf gate' = gateOf gate := by
    refine GateSettings.mk.injEq .. |>.mpr ⟨?_, ?_⟩ <;>
      exact hag.setting_eq _ _ (by decide +kernel)
  have houtput : outputOf output' = outputOf output := by
    refine OutputSettings.mk.injEq .. |>.mpr ⟨?_, ?_, ?_⟩ <;>
      exact hao.setting_eq _ _ (by decide +kernel)
  have hlogging : loggingOf logging' = loggingOf logging := by
    refine LoggingSettings.mk.injEq .. |>.mpr ⟨?_, ?_⟩ <;>
      exact hal.setting_eq _ _ (by decide +kernel)
  refine ofSettings_eq_ok_iff.mpr ⟨scanners', files', performance', gate', output', logging', hs',
    hcs (by decide), hf', hp', hcp (by decide), hg', ho', hco (by decide), hl', hcl (by decide), ?_⟩
  rw [hmode, hscanners, hfiles, hap.setting_eq _ _ (by decide +kernel), hgate, houtput, hlogging]

/-- Settings that gain a key that is no setting describe the same configuration, unless the key is
reserved in a section that is checked. -/
theorem ofSettings_gained {s s' : List (Value × Value)} {c : Config} (h : ofSettings s = .ok c)
    (hpart : part ∈ partNames) (hname : ({} : Config).setting? part name = none)
    (hapart : ∀ t, t ≠ part → Value.lookup s' t = Value.lookup s t)
    (hgained : Value.GainedIn name (Value.lookup s part) (Value.lookup s' part)) :
    ofSettings s' = if part ∈ checkedNames ∧ name ∈ reserved then
      .error (.kind (.unknownSetting name)) else .ok c := by
  obtain ⟨es, es', hes, hes', hgained⟩ := hgained
  have hsection := sectionOf_of_entriesIn hes
  have hsection' := sectionOf_of_entriesIn hes'
  have hother {p : Text} (hp : p ≠ part) : sectionOf s' p = sectionOf s p :=
    sectionOf_congr (hapart p hp)
  split_ifs with hbad
  · have hcheck : checkNames es' = .error (.kind (.unknownSetting name)) := by
      rw [checkNames_gained hgained (checkNames_of_ofSettings h hbad.1 hsection), if_pos hbad.2]
    cases hs' : ofSettings s' with
    | ok c' => cases (checkNames_of_ofSettings hs' hbad.1 hsection').symm.trans hcheck
    | error f =>
      -- What is wrong cannot be in another section, as these are as before.
      rcases of_ofSettings_error hs' with ⟨p, hp, hf⟩ | ⟨p, hp, es'', hf, hf'⟩
      · by_cases hpp : p = part
        · cases hsection'.symm.trans (hpp ▸ hf)
        · obtain ⟨_, hok⟩ := exists_sectionOf_of_ofSettings h hp
          cases (hother hpp ▸ hok).symm.trans hf
      · by_cases hpp : p = part
        · cases hsection'.symm.trans (hpp ▸ hf)
          cases hcheck.symm.trans hf'
          rfl
        · cases (checkNames_of_ofSettings h hp (hother hpp ▸ hf)).symm.trans hf'
  · refine ofSettings_eq_ok_of_agreeOn h ?_ fun p hp es₀ hes₀ => ?_
    · have hmode : "scan_mode" ≠ part := by
        rintro rfl
        exact absurd hpart (by decide)
      rw [Value.field, Value.field, hapart _ hmode]
    · by_cases hpp : p = part
      · subst hpp
        cases hsection.symm.trans hes₀
        refine ⟨es', hsection', fun n hn => hgained.apart n ?_, fun hchecked => ?_⟩
        · rintro rfl
          rw [hname] at hn
          cases hn
        · rw [checkNames_gained hgained (checkNames_of_ofSettings h hchecked hsection),
            if_neg fun hreserved => hbad ⟨hchecked, hreserved⟩]
      · exact ⟨es₀, hother hpp ▸ hes₀, fun _ _ => rfl, fun hchecked =>
          checkNames_of_ofSettings h hchecked hes₀⟩

/-! ## Layers that gain a key -/

/-- A mode's profile has mappings only. -/
theorem isSome_entries?_of_mem_profile {m : Mode} {part : Text} {w : Value}
    (h : w ∈ Value.values [m.profile] part) : w.entries?.isSome = true := by
  have hall : ∀ m : Mode, ∀ e ∈ m.profile, e.2.entries?.isSome = true := by
    intro m
    cases m <;> decide
  obtain ⟨layer, hlayer, hw⟩ := List.mem_filterMap.mp h
  rw [List.mem_singleton.mp hlayer] at hw
  obtain ⟨e, he, rfl⟩ := Option.map_eq_some_iff.mp hw
  exact hall m e (List.mem_of_find?_eq_some he)

/-- The values that layers give to a key, one of them singled out. -/
theorem values_append_cons (above below : List (List (Value × Value)))
    (layer : List (Value × Value)) (key : Text) : Value.values (above ++ layer :: below) key =
      Value.values above key ++ ((Value.lookup layer key).toList ++ Value.values below key) := by
  rw [← Value.values_cons]
  exact List.filterMap_append

/-- A configuration that is loaded is described by the layers laid over the profile of their mode.
Where other layers name the same mode and describe it too, or nothing, that is what is loaded. -/
theorem exists_settings_of_load {e : Environment} {d : Disk} {path upper : Value}
    {ls : List (List (Value × Value))} (hls : layers e d path upper = .ok ls) {c : Config}
    (hc : load e d path upper = .ok c) : ∃ m : Mode,
      ofSettings (Value.laid [Value.laid ls, m.profile]) = .ok c ∧
      ∀ {e' d' path' upper' ls' r}, layers e' d' path' upper' = .ok ls' →
        Value.lookup (Value.laid ls') "scan_mode" = Value.lookup (Value.laid ls) "scan_mode" →
        ofSettings (Value.laid [Value.laid ls', m.profile]) = r →
        (∀ c', r = .ok c' → c' = c) → load e' d' path' upper' = r := by
  rw [load_eq] at hc
  obtain ⟨settings, hs, hc⟩ := Attempt.bind_eq_ok_iff.mp hc
  obtain ⟨ls', m, hls', hm, rfl⟩ := of_settingsOf hs
  cases hls.symm.trans hls'
  obtain ⟨c', hc', hc⟩ := Attempt.bind_eq_ok_iff.mp hc
  obtain ⟨_, hthreshold, hc⟩ := Attempt.bind_eq_ok_iff.mp hc
  cases hc
  refine ⟨m, hc', fun {e' d' path' upper' ls' r} hls' hmode hr hsame => ?_⟩
  -- The profile is that of the mode, and the mode is named by the layers alike.
  have hunder : underMode (Value.laid ls') = .ok (Value.laid [Value.laid ls', m.profile]) := by
    unfold underMode
    rw [hmode, hm]
    cases m <;> rfl
  have hsettings : settingsOf e' d' path' upper' =
      .ok (Value.laid [Value.laid ls', m.profile]) := by
    rw [settingsOf, hls']
    exact hunder
  rw [load_eq, hsettings]
  change (ofSettings _ >>= _) = r
  rw [hr]
  cases r with
  | error f => rfl
  | ok c' =>
    cases hsame c' rfl
    change (checkThreshold c.gate.failOn >>= _) = _
    rw [hthreshold]
    rfl

section Layers

variable {above below : List (List (Value × Value))}

/-- What is laid over a profile holds under a key is told by what is laid and by the profile. -/
theorem lookup_over_profile {ls : List (List (Value × Value))}
    (hk : ∀ layer ∈ ls, Value.IsKeyed (.map layer)) (m : Mode) (key : Text) :
    Value.lookup (Value.laid [Value.laid ls, m.profile]) key =
      Value.stacked ((Value.stacked (Value.values ls key)).toList ++
        Value.values [m.profile] key) := by
  rw [Value.lookup_laid (isKeyed_over_profile hk m), Value.values_cons, Value.lookup_laid hk]

/-- Where a layer gains a key in a section and nothing above hides it, the section of the settings
gains the key. -/
theorem Gains.gainedIn_over_profile (hgains : Gains part name v layer layer')
    (hk : ∀ l ∈ above ++ layer :: below, Value.IsKeyed (.map l))
    (hk' : ∀ l ∈ above ++ layer' :: below, Value.IsKeyed (.map l))
    (hbelow : Value.lookup layer part = none →
      ∀ w ∈ (Value.values below part).head?, w.entries?.isSome = true)
    (habove : ∀ w ∈ Value.values above part, w.entries?.isSome = true) (m : Mode) :
    Value.GainedIn name
      (Value.lookup (Value.laid [Value.laid (above ++ layer :: below), m.profile]) part)
      (Value.lookup (Value.laid [Value.laid (above ++ layer' :: below), m.profile]) part) := by
  obtain ⟨w, hw, hgained⟩ := hgains.gainedIn
  have hstack : Value.values (above ++ layer :: below) part = Value.values above part ++
      ((Value.lookup layer part).toList ++ Value.values below part) :=
    values_append_cons above below layer part
  have hstack' : Value.values (above ++ layer' :: below) part = Value.values above part ++
      (w :: Value.values below part) := by
    rw [values_append_cons, hw]
    rfl
  have hkeyed : ∀ x ∈ Value.values (above ++ layer :: below) part, x.IsKeyed := fun _ =>
    Value.isKeyed_of_mem_values hk
  have hkeyed' : ∀ x ∈ Value.values (above ++ layer' :: below) part, x.IsKeyed := fun _ =>
    Value.isKeyed_of_mem_values hk'
  simp only [hstack, hstack', List.forall_mem_append, List.forall_mem_cons] at hkeyed hkeyed'
  -- From the layer upwards, and then over the profile.
  have hlayer := hgained.stacked
    (List.forall_mem_append.mpr ⟨hkeyed.2.1, List.forall_mem_singleton.mpr hkeyed'.2.1⟩)
    (fun hnone => Value.isSome_entriesIn_stacked hkeyed.2.2 (hbelow hnone))
  have hlayers := hlayer.append hkeyed.1 habove
  rw [← hstack, ← hstack', ← Value.lookup_laid hk, ← Value.lookup_laid hk'] at hlayers
  rw [lookup_over_profile hk, lookup_over_profile hk', ← Value.lookup_laid hk,
    ← Value.lookup_laid hk']
  obtain ⟨x, hx⟩ : ∃ x, Value.lookup (Value.laid (above ++ layer' :: below)) part = some x := by
    rw [Value.lookup_laid hk', hstack']
    cases Value.values above part <;> exact ⟨_, rfl⟩
  rw [hx] at hlayers ⊢
  refine hlayers.stacked ?_ fun _ => Value.isSome_entriesIn_stacked ?_ ?_
  · simp only [List.forall_mem_append, Option.mem_toList, List.forall_mem_singleton]
    exact ⟨fun y hy => Value.isKeyed_of_lookup (Value.isKeyed_laid hk) hy,
      Value.isKeyed_of_lookup (Value.isKeyed_laid hk') hx⟩
  · exact fun y => Value.isKeyed_of_mem_values (by simpa using m.isKeyed_profile)
  · exact fun y hy => isSome_entries?_of_mem_profile (List.mem_of_mem_head? hy)

/-- A key that is no setting changes nothing. Where a configuration is loaded from layers, and a
layer gains a key with any value in any of the sections, of which it is no setting, the same
configuration is loaded from the layers then, wherever these come from; a section that the layer
does not have is made for the key, if there is one below or none at all. But four of the sections
are checked for names that are reserved: such a key is a fault, unless a layer above has nothing in
the section, which hides the key. -/
theorem unknown_key_passed_over {e : Environment} {d : Disk} {path upper : Value}
    (hu : upper.IsKeyed) {c : Config} (hc : load e d path upper = .ok c)
    (hls : layers e d path upper = .ok (above ++ layer :: below)) (hpart : part ∈ partNames)
    (hname : ({} : Config).setting? part name = none) (hv : v.IsKeyed)
    (hgains : Gains part name v layer layer')
    (hbelow : Value.lookup layer part = none →
      ∀ w ∈ (Value.values below part).head?, w.entries?.isSome = true)
    {e' : Environment} {d' : Disk} {path' upper' : Value}
    (hls' : layers e' d' path' upper' = .ok (above ++ layer' :: below)) :
    load e' d' path' upper' =
      if part ∈ checkedNames ∧ name ∈ reserved ∧
          ∀ w ∈ Value.values above part, w.entries?.isSome = true then
        .error (.kind (.unknownSetting name))
      else .ok c := by
  obtain ⟨m, hs, hload⟩ := exists_settings_of_load hls hc
  have hk := isKeyed_of_mem_layers hu hls
  have hk' : ∀ l ∈ above ++ layer' :: below, Value.IsKeyed (.map l) := by
    simp only [List.forall_mem_append, List.forall_mem_cons] at hk ⊢
    exact ⟨hk.1, hgains.isKeyed hv hk.2.1, hk.2.2⟩
  -- All other sections, and the mode, are as before.
  have hvalues {key : Text} (hkey : key ≠ part) : Value.values (above ++ layer' :: below) key =
      Value.values (above ++ layer :: below) key := by
    rw [values_append_cons, values_append_cons, hgains.lookup_eq hkey]
  have hmode : Value.lookup (Value.laid (above ++ layer' :: below)) "scan_mode" =
      Value.lookup (Value.laid (above ++ layer :: below)) "scan_mode" := by
    have hne : "scan_mode" ≠ part := by
      rintro rfl
      exact absurd hpart (by decide)
    rw [Value.lookup_laid hk', Value.lookup_laid hk, hvalues hne]
  have hapart : ∀ t, t ≠ part →
      Value.lookup (Value.laid [Value.laid (above ++ layer' :: below), m.profile]) t =
        Value.lookup (Value.laid [Value.laid (above ++ layer :: below), m.profile]) t := by
    intro t ht
    rw [lookup_over_profile hk', lookup_over_profile hk, hvalues ht]
  by_cases hmaps : ∀ w ∈ Value.values above part, w.entries?.isSome = true
  · have hgained := hgains.gainedIn_over_profile hk hk' hbelow hmaps m
    have hnew := ofSettings_gained hs hpart hname hapart hgained
    refine (hload hls' hmode hnew fun c' hc' => ?_).trans (if_congr ?_ rfl rfl)
    · split_ifs at hc'
      exact (Except.ok.inj hc').symm
    · rw [← and_assoc, and_iff_left hmaps]
  · -- The section is as it was, since what lies above hides the key.
    obtain ⟨x, hx, hplain⟩ : ∃ x ∈ Value.values above part, x.entries? = none := by
      simpa using hmaps
    rw [if_neg fun hbad => hmaps hbad.2.2]
    refine hload hls' hmode ?_ fun c' hc' => (Except.ok.inj hc').symm
    rw [← hs]
    refine ofSettings_congr fun t => ?_
    by_cases ht : t = part
    · subst ht
      rw [lookup_over_profile hk', lookup_over_profile hk, values_append_cons, values_append_cons,
        Value.stacked_append_of_plain hx hplain]
    · exact hapart t ht

end Layers

/-- With a key that is no setting among the scanners, and with a reserved one among the files, the
configuration is the one without them. -/
theorem unknown_keys_on_command_line_passed_over :
    ∃ c, load {} bare .null (named [("scanners", named []), ("files", named [])]) = .ok c ∧
      load {} bare .null (named [("scanners", named [("zzz", .null)]), ("files", named [])]) =
        .ok c ∧
      load {} bare .null (named [("scanners", named []), ("files", named [("__doc__", .null)])]) =
        .ok c := by
  have hkeyed : (named [("scanners", named []), ("files", named [])]).IsKeyed :=
    .map (by decide) (by simpa [named] using Value.isKeyed_nil)
  obtain ⟨c, hc⟩ : ∃ c, load {} bare .null (named [("scanners", named []), ("files", named [])]) =
      .ok c := Attempt.exists_of_isOk (by decide +kernel)
  have hnull : Value.null.IsKeyed := .other (by decide)
  have hlayers (scanners files : List (Text × Value)) : layers {} bare .null
      (named [("scanners", named scanners), ("files", named files)]) =
        .ok ([] ++ [(.text "scanners", named scanners), (.text "files", named files)] ::
          [[], [], defaults]) := rfl
  -- Each of the two keys is gained by a section that was empty before.
  have hscanners : Gains "scanners" "zzz" .null
      [(.text "scanners", named []), (.text "files", named [])]
      [(.text "scanners", named [("zzz", .null)]), (.text "files", named [])] := ⟨[], rfl, rfl⟩
  have hfiles : Gains "files" "__doc__" .null
      [(.text "scanners", named []), (.text "files", named [])]
      [(.text "scanners", named []), (.text "files", named [("__doc__", .null)])] :=
    ⟨[], rfl, rfl⟩
  refine ⟨c, hc, ?_, ?_⟩
  · refine (unknown_key_passed_over hkeyed hc (hlayers [] []) (by decide) (by decide +kernel) hnull
      hscanners (fun h => by cases h) (hlayers [("zzz", .null)] [])).trans ?_
    exact if_neg (by decide)
  · refine (unknown_key_passed_over hkeyed hc (hlayers [] []) (by decide) (by decide +kernel) hnull
      hfiles (fun h => by cases h) (hlayers [] [("__doc__", .null)])).trans ?_
    exact if_neg (by decide)

/-- A reserved key among the scanners is no setting, and is not passed over: without it the
configuration is loaded, and with it none is. -/
theorem reserved_key_stops_loading :
    ({} : Config).setting? "scanners" "__doc__" = none ∧
    (∃ c, load {} bare .null (named [("scanners", named [])]) = .ok c) ∧
    load {} bare .null (named [("scanners", named [("__doc__", .int 1)])]) =
      .error (.kind (.unknownSetting "__doc__")) := by
  have hfault : (load {} bare .null (named [("scanners", named [("__doc__", .int 1)])])).map
      (fun _ => ()) = .error (.kind (.unknownSetting "__doc__")) := by
    decide +kernel
  exact ⟨by decide +kernel, Attempt.exists_of_isOk (by decide +kernel),
    Attempt.map_eq_error_iff.mp hfault⟩

end Config

end SurfaceAudit
