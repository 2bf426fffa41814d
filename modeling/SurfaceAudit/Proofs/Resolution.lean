import SurfaceAudit.Proofs.Settings

/-!
# The layers that settings come from

A configuration that is loaded has its mode from the highest layer that names one, its profile from
that mode, and each setting from the highest layer that settles it (`Config.Resolves`). Settings
with a section that is neither nothing nor a mapping describe no configuration.
-/

namespace SurfaceAudit.Config

/-- The mode that a value puts in force. What counts as false stands for the balanced one. -/
def modeInForce (v : Value) : Value := if v.isTrue then v else .text "balanced"

/-- What a value puts in force names the same mode as the value. -/
theorem ofValue_modeInForce (v : Value) : Mode.ofValue (modeInForce v) = Mode.ofValue v := by
  unfold modeInForce
  split
  · rfl
  · rename_i hfalse
    rw [Mode.ofValue_of_not_isTrue (Bool.eq_false_iff.mpr hfalse)]
    decide

/-- A configuration has its mode and its settings from layers, the highest first, and from the
profile of a mode. -/
structure Resolves (c : Config) (ls : List (List (Value × Value))) (m : Mode) : Prop where
  /-- The mode in force is that of the layers laid over one another. -/
  mode : ∃ v, Value.stacked (Value.values ls "scan_mode") = some v ∧ c.mode = modeInForce v
  /-- It is that of the highest layer with a mode, unless this and the next one are mappings. -/
  highest : ∃ v lower, Value.values ls "scan_mode" = v :: lower ∧
    (v.entries? = none ∨ lower.head?.bind Value.entries? = none → c.mode = modeInForce v)
  /-- The profile is that of the mode with the name in force, in whatever case, and the balanced one
  if there is no such mode. -/
  profile : ∃ t, c.mode.shown = .ok t ∧ ∀ n, n ≠ .balanced → (m = n ↔ t.lower = n.name)
  /-- A setting whose values are no mappings has its default, if the highest layer with the section
  has nothing there. Otherwise it has the value of the highest layer that settles it, of the profile
  or its default. -/
  setting : ∀ part name default, ({} : Config).setting? part name = some default →
    Value.IsPlainIn name (Value.values ls part) →
    c.setting? part name = some
      (if (Value.values ls part).head?.any Value.isNull then default
      else ((Value.settled name (Value.values ls part)).or
        (Value.settled name (Value.values [m.profile] part))).getD default)

variable {e : Environment} {d : Disk} {path upper : Value}

/-- Some layer names a mode. -/
theorem exists_values_mode {ls : List (List (Value × Value))}
    (h : layers e d path upper = .ok ls) : ∃ v lower, Value.values ls "scan_mode" = v :: lower := by
  obtain ⟨environment, -, h⟩ := Attempt.bind_eq_ok_iff.mp h
  obtain ⟨file, -, h⟩ := Attempt.bind_eq_ok_iff.mp h
  obtain ⟨commandLine, -, rfl⟩ := Attempt.map_eq_ok_iff.mp h
  have hmem :
      .text "balanced" ∈ Value.values [commandLine, file, environment, defaults] "scan_mode" :=
    List.mem_filterMap.mpr ⟨defaults, by simp, rfl⟩
  exact List.exists_cons_of_ne_nil (List.ne_nil_of_mem hmem)

/-- A configuration that settings of layers describe resolves from the layers. -/
theorem resolves_of_ofSettings {ls : List (List (Value × Value))}
    (hk : ∀ layer ∈ ls, Value.IsKeyed (.map layer)) {v : Value} {lower : List Value}
    (hmode : Value.values ls "scan_mode" = v :: lower) {m : Mode}
    (hm : Mode.ofValue ((Value.lookup (Value.laid ls) "scan_mode").getD (.text "balanced")) = .ok m)
    {c : Config} (hc : ofSettings (Value.laid [Value.laid ls, m.profile]) = .ok c) :
    c.Resolves ls m := by
  have hboth := isKeyed_over_profile hk m
  obtain ⟨w, hw⟩ : ∃ w, Value.stacked (Value.values ls "scan_mode") = some w := by
    rw [hmode]
    exact ⟨_, rfl⟩
  have hlaid : Value.lookup (Value.laid ls) "scan_mode" = some w :=
    (Value.lookup_laid hk _).trans hw
  -- The profile names no mode, so the settings have the mode of the layers.
  have hfield : Value.field (Value.laid [Value.laid ls, m.profile]) "scan_mode" = w := by
    have hvalues : Value.values [Value.laid ls, m.profile] "scan_mode" = [w] := by
      rw [Value.values_cons, Value.values_cons, hlaid, m.lookup_profile_mode]
      rfl
    rw [Value.field, Value.lookup_laid hboth, hvalues, Value.stacked_of_plain (.inr rfl),
      Option.getD_some]
  have hforce : c.mode = modeInForce w := by
    obtain ⟨_, _, _, _, _, _, -, -, -, -, -, -, rfl⟩ := of_ofSettings hc
    rw [← hfield]
    rfl
  refine ⟨⟨w, hw, hforce⟩, ⟨v, lower, hmode, fun hplain => ?_⟩, ?_, ?_⟩
  · rw [hmode, Value.stacked_of_plain hplain] at hw
    rw [hforce, Option.some.inj hw]
  · rw [hlaid, Option.getD_some, ← ofValue_modeInForce, ← hforce] at hm
    obtain ⟨t, ht, rfl⟩ := Attempt.map_eq_ok_iff.mp hm
    exact ⟨t, ht, fun n hn => Mode.ofText_eq_iff hn t⟩
  · intro part name default hdefault hplain
    obtain ⟨es, hes, hsetting⟩ := setting?_of_ofSettings hc hdefault
    rw [hsetting, Config.setting, lookup_section hk m hes hplain]
    split <;> rfl

/-- The sections whose names are checked. -/
def checkedNames : List Text := ["scanners", "performance", "output", "logging"]

/-- Entries have a key that is no text, or one that is reserved. -/
def IsMisnamed (es : List (Value × Value)) : Prop :=
  ∃ x ∈ es, x.1.text?.all reserved.contains = true

/-- The check of names fails for a key only. -/
theorem isMisnamed_of_checkNames {es : List (Value × Value)} {f : Fault}
    (h : checkNames es = .error f) : IsMisnamed es := by
  unfold checkNames at h
  rcases Attempt.bind_eq_error_iff.mp h with hfirst | ⟨-, -, h⟩
  · -- The loop ends at the first key that is no text.
    clear h
    induction es with
    | nil => cases hfirst
    | cons x r ih =>
      obtain ⟨k, v⟩ := x
      rw [List.forIn_cons] at hfirst
      cases k with
      | text t =>
        obtain ⟨y, hy, hkey⟩ := ih hfirst
        exact ⟨y, List.mem_cons_of_mem _ hy, hkey⟩
      | _ => exact ⟨_, List.mem_cons_self, rfl⟩
  · split at h
    · cases h
    · rename_i name _ hnames
      obtain ⟨x, hx, hname⟩ := List.mem_filterMap.mp (hnames ▸ List.mem_cons_self)
      obtain ⟨htext, hreserved⟩ := Option.filter_eq_some_iff.mp hname
      exact ⟨x, hx, by rw [htext, Option.all_some, hreserved]⟩

/-- A section that cannot be had is neither nothing nor a mapping. -/
theorem of_sectionOf_error {settings : List (Value × Value)} {part : Text} {f : Fault}
    (h : sectionOf settings part = .error f) : ∃ v, Value.lookup settings part = some v ∧
      v ≠ .null ∧ v.entries? = none ∧ f = .sectionShape part v.kindName := by
  cases hv : Value.lookup settings part with
  | none => cases (sectionOf_of_null (.inl hv)).symm.trans h
  | some v =>
    by_cases hnull : v = .null
    · subst hnull
      cases (sectionOf_of_null (.inr hv)).symm.trans h
    · cases hes : v.entries? with
      | some es => cases (sectionOf_of_entries hv hes).symm.trans h
      | none =>
        cases (sectionOf_of_plain hv hnull hes).symm.trans h
        exact ⟨v, rfl, hnull, hes, rfl⟩

/-- Settings that describe no configuration have a section that cannot be had, or one whose names do
not pass the check. -/
theorem of_ofSettings_error {settings : List (Value × Value)} {f : Fault}
    (h : ofSettings settings = .error f) :
    (∃ part ∈ partNames, sectionOf settings part = .error f) ∨
      ∃ part ∈ checkedNames, ∃ es, sectionOf settings part = .ok es ∧ checkNames es = .error f := by
  unfold ofSettings at h
  -- Each section that is checked is checked before the next one is looked up.
  rcases Attempt.bind_eq_error_iff.mp h with hf | ⟨scanners, hscanners, h⟩
  · exact .inl ⟨_, by decide, hf⟩
  rcases Attempt.bind_eq_error_iff.mp h with hf | ⟨-, -, h⟩
  · exact .inr ⟨_, by decide, _, hscanners, hf⟩
  rcases Attempt.bind_eq_error_iff.mp h with hf | ⟨_, -, h⟩
  · exact .inl ⟨_, by decide, hf⟩
  rcases Attempt.bind_eq_error_iff.mp h with hf | ⟨performance, hperformance, h⟩
  · exact .inl ⟨_, by decide, hf⟩
  rcases Attempt.bind_eq_error_iff.mp h with hf | ⟨-, -, h⟩
  · exact .inr ⟨_, by decide, _, hperformance, hf⟩
  rcases Attempt.bind_eq_error_iff.mp h with hf | ⟨_, -, h⟩
  · exact .inl ⟨_, by decide, hf⟩
  rcases Attempt.bind_eq_error_iff.mp h with hf | ⟨output, houtput, h⟩
  · exact .inl ⟨_, by decide, hf⟩
  rcases Attempt.bind_eq_error_iff.mp h with hf | ⟨-, -, h⟩
  · exact .inr ⟨_, by decide, _, houtput, hf⟩
  rcases Attempt.bind_eq_error_iff.mp h with hf | ⟨logging, hlogging, h⟩
  · exact .inl ⟨_, by decide, hf⟩
  rcases Attempt.bind_eq_error_iff.mp h with hf | ⟨-, -, h⟩
  · exact .inr ⟨_, by decide, _, hlogging, hf⟩
  · cases h

/-- A section that is neither nothing nor a mapping is no section of settings that describe a
configuration. -/
theorem exists_ofSettings_eq_error {settings : List (Value × Value)} {part : Text}
    (hpart : part ∈ partNames) {v : Value} (hv : Value.lookup settings part = some v)
    (hnull : v ≠ .null) (hes : v.entries? = none) : ∃ f, ofSettings settings = .error f := by
  cases h : ofSettings settings with
  | error f => exact ⟨f, rfl⟩
  | ok c =>
    obtain ⟨_, _, _, _, _, _, hscanners, hfiles, hperformance, hgate, houtput, hlogging, -⟩ :=
      of_ofSettings h
    have hfault := sectionOf_of_plain hv hnull hes
    simp only [partNames, List.mem_cons, List.not_mem_nil, or_false] at hpart
    rcases hpart with rfl | rfl | rfl | rfl | rfl | rfl
    · cases hfault.symm.trans hscanners
    · cases hfault.symm.trans hfiles
    · cases hfault.symm.trans hperformance
    · cases hfault.symm.trans hgate
    · cases hfault.symm.trans houtput
    · cases hfault.symm.trans hlogging

/-- A configuration that is loaded resolves from its layers. If a section of the settings is neither
nothing nor a mapping, none is loaded, and the fault is the shape of such a section, provided that
no section whose names are checked has a key that is no text or reserved. -/
theorem settings_resolved (e : Environment) (d : Disk) (path upper : Value) (hu : upper.IsKeyed) :
    (∀ c, load e d path upper = .ok c →
      ∃ ls m, layers e d path upper = .ok ls ∧ c.Resolves ls m) ∧
    ∀ settings part v, settingsOf e d path upper = .ok settings → part ∈ partNames →
      Value.lookup settings part = some v → v ≠ .null → v.entries? = none →
      ∃ f, load e d path upper = .error f ∧
        ((∀ name ∈ checkedNames, ∀ es, sectionOf settings name = .ok es → ¬IsMisnamed es) →
          ∃ name w, Value.lookup settings name = some w ∧ w ≠ .null ∧ w.entries? = none ∧
            f = .sectionShape name w.kindName) := by
  constructor
  · intro c hc
    rw [load_eq] at hc
    obtain ⟨settings, hs, hc⟩ := Attempt.bind_eq_ok_iff.mp hc
    obtain ⟨ls, m, hls, hm, rfl⟩ := of_settingsOf hs
    obtain ⟨c', hc', hc⟩ := Attempt.bind_eq_ok_iff.mp hc
    obtain ⟨-, -, hc⟩ := Attempt.bind_eq_ok_iff.mp hc
    cases hc
    obtain ⟨v, lower, hmode⟩ := exists_values_mode hls
    exact ⟨ls, m, hls, resolves_of_ofSettings (isKeyed_of_mem_layers hu hls) hmode hm hc'⟩
  · intro settings part v hs hpart hv hnull hes
    -- Some section has a wrong shape, so there is a fault, and each fault of the settings is one of
    -- two kinds.
    obtain ⟨f, hf⟩ := exists_ofSettings_eq_error hpart hv hnull hes
    refine ⟨f, ?_, fun hnames => ?_⟩
    · rw [load_eq, hs]
      exact Attempt.bind_eq_error_iff.mpr
        (.inr ⟨settings, rfl, Attempt.bind_eq_error_iff.mpr (.inl hf)⟩)
    · rcases of_ofSettings_error hf with ⟨name, -, hshape⟩ | ⟨name, hname, es, hes', hcheck⟩
      · obtain ⟨w, hw, hwnull, hwes, rfl⟩ := of_sectionOf_error hshape
        exact ⟨name, w, hw, hwnull, hwes, rfl⟩
      · exact absurd (isMisnamed_of_checkNames hcheck) (hnames name hname es hes')

/-- An empty disk. -/
def bare : Disk := ⟨.directory [], []⟩

/-- An environment that names the permissive mode. -/
def permissive : Environment := { mode := "Permissive" }

/-- Where the environment names the permissive mode and the command line has nothing for the
scanners, these are the default ones, and the gate is that of the profile. A gate that is a number
is no section. -/
theorem settings_resolved_permissive :
    (∃ c, load permissive bare .null (named [("scanners", .null)]) = .ok c ∧
      c.mode = .text "Permissive" ∧ c.setting? "scanners" "script_import" = some (.bool true) ∧
      c.setting? "gate" "fail_on" = some .null) ∧
    ∃ f, load permissive bare .null (named [("gate", .int 5)]) = .error f := by
  -- The layers are those of the command line, of no file, of the environment and of the defaults.
  have hlayers (name : Text) (v : Value) : layers permissive bare .null (named [(name, v)]) =
      .ok [[(.text name, v)], [], [(.text "scan_mode", .text "Permissive")], defaults] := rfl
  constructor
  · obtain ⟨c, hc⟩ : ∃ c, load permissive bare .null (named [("scanners", .null)]) = .ok c :=
      Attempt.exists_of_isOk (by decide +kernel)
    obtain ⟨ls, m, hls, hr⟩ :=
      (settings_resolved permissive bare .null _ (isKeyed_named "scanners" (by decide))).1 c hc
    cases (hlayers _ _).symm.trans hls
    have hmode : c.mode = .text "Permissive" := by
      obtain ⟨v, lower, hv, hmode⟩ := hr.highest
      cases hv
      exact hmode (.inl rfl)
    obtain rfl : m = .permissive := by
      obtain ⟨t, ht, hm⟩ := hr.profile
      rw [hmode] at ht
      cases ht
      exact (hm .permissive (by decide)).mpr (by decide)
    refine ⟨c, hc, hmode, hr.setting _ _ _ rfl ?_, hr.setting _ _ _ rfl ?_⟩
    · intro v hv es w hes
      rw [List.mem_singleton.mp hv] at hes
      cases hes
    · exact fun v hv => absurd hv List.not_mem_nil
  · have hsettings : settingsOf permissive bare .null (named [("gate", .int 5)]) =
        .ok (Value.laid [Value.laid [[(.text "gate", .int 5)], [],
          [(.text "scan_mode", .text "Permissive")], defaults], Mode.permissive.profile]) := rfl
    have hgate := isKeyed_named "gate" (v := .int 5) (by simp [Value.IsPlain])
    obtain ⟨f, hf, -⟩ := (settings_resolved permissive bare .null _ hgate).2 _ "gate" (.int 5)
      hsettings (by decide) rfl (by simp) rfl
    exact ⟨f, hf⟩

/-- A disk with a file of settings in which the mode is a mapping. -/
def strayMode : Disk :=
  ⟨.directory [("compat-scanner.yaml", .file "scan_mode:\n  a: 1\n".toUTF8.toList)], []⟩

/-- A command line on which the mode is a mapping. -/
def strayOverride : Value := named [("scan_mode", named [("b", .int 2)])]

/-- A mode that is a mapping in the file and on the command line is not that of the command line. -/
theorem layers_mixed : ∃ c ls, load {} strayMode .null strayOverride = .ok c ∧
    layers {} strayMode .null strayOverride = .ok ls ∧
    (Value.values ls "scan_mode").head? = some (named [("b", .int 2)]) ∧
    c.mode ≠ modeInForce (named [("b", .int 2)]) := by
  obtain ⟨c, hc, hkeys⟩ := Attempt.map_eq_ok_iff.mp
    (show (load {} strayMode .null strayOverride).map
        (fun c => c.mode.entries?.map fun es => es.map (·.1.text?)) =
      .ok (some [some "a", some "b"]) by decide +kernel)
  obtain ⟨file, hfile⟩ : ∃ file, foundLayer strayMode .null = .ok file :=
    Attempt.exists_of_isOk (by decide +kernel)
  refine ⟨c, [[(.text "scan_mode", named [("b", .int 2)])], file, [], defaults], hc, ?_, rfl, ?_⟩
  · unfold layers
    rw [hfile]
    rfl
  · -- The mode has the key of the file too.
    intro hmode
    rw [hmode] at hkeys
    exact absurd hkeys (by decide)

end SurfaceAudit.Config
