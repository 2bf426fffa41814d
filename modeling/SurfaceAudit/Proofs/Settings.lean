import SurfaceAudit.Config.Load
import SurfaceAudit.Proofs.Layers
import SurfaceAudit.Proofs.Steps
import SurfaceAudit.Proofs.YamlValues

/-!
# The settings of a section

A configuration is read off the settings of four layers, with the profile of their mode below them
(`Config.load_eq`). Each of these layers sets each text key once (`Config.isKeyed_of_mem_layers`),
so that a section of the settings gives a name the value of the highest layer that settles it, or
else of the profile (`Config.lookup_section`), and the configuration takes its setting from there
(`Config.setting?_of_ofSettings`).
-/

namespace SurfaceAudit

namespace Mode

/-- Modes with the same name are the same. -/
theorem name_injective {m n : Mode} (h : m.name = n.name) : m = n := by
  cases m <;> cases n <;> first | rfl | exact absurd h (by decide)

/-- A mode other than the balanced one is had by its name alone, in whatever case. -/
theorem ofText_eq_iff {m : Mode} (h : m ≠ .balanced) (t : Text) :
    ofText t = m ↔ t.lower = m.name := by
  unfold ofText
  cases hf : all.find? (·.name == t.lower) with
  | none =>
    have hm : m ∈ all := by cases m <;> decide
    have hne : m.name ≠ t.lower := by simpa using List.find?_eq_none.mp hf m hm
    exact iff_of_false (Ne.symm h) (Ne.symm hne)
  | some n =>
    have hn : n.name = t.lower := by simpa using List.find?_some hf
    rw [← hn]
    exact ⟨fun heq => congrArg name heq, name_injective⟩

/-- What counts as false names no other mode than the balanced one. -/
theorem ofValue_of_not_isTrue {v : Value} (h : v.isTrue = false) : ofValue v = .ok .balanced := by
  -- Of each kind of value one counts as false, and it is not a name of a mode.
  cases v with
  | null => decide
  | bool b =>
    obtain rfl : b = false := h
    decide
  | int n =>
    obtain rfl : n = 0 := by simpa [Value.isTrue] using h
    decide
  | real x =>
    cases x with
    | finite s m e =>
      obtain rfl : m = 0 := by simpa [Value.isTrue, Binary64.isZero] using h
      cases s <;> rfl
    | nan => cases h
    | infinity s => cases h
  | text t =>
    obtain rfl : t = [] := by simpa [Value.isTrue] using h
    decide
  | bytes b =>
    obtain rfl : b = [] := by simpa [Value.isTrue] using h
    decide
  | list items =>
    obtain rfl : items = [] := by simpa [Value.isTrue] using h
    decide
  | tuple items =>
    obtain rfl : items = [] := by simpa [Value.isTrue] using h
    decide
  | set items =>
    obtain rfl : items = [] := by simpa [Value.isTrue] using h
    decide
  | map es =>
    obtain rfl : es = [] := by simpa [Value.isTrue] using h
    decide
  | _ => cases h

/-- The profile of a mode has each text key once, and so have its sections. -/
theorem isKeyed_profile (m : Mode) : Value.IsKeyed (.map m.profile) := by
  have hscanners : allScanners.IsKeyed := .of_plain (by decide) (by decide)
  cases m with
  | strict | balanced | permissive =>
    refine .map (by decide) (List.forall_mem_cons.mpr ⟨?_, List.forall_mem_singleton.mpr ?_⟩)
    · first | exact hscanners | exact .of_plain (by decide) (by decide)
    · exact .of_plain (by decide) (by decide)

/-- No setting in the profile of a mode is a mapping. -/
theorem isPlainIn_profile (m : Mode) (part name : Text) :
    Value.IsPlainIn name (Value.values [m.profile] part) := by
  refine Value.isPlainIn_values ?_ part name
  cases m <;> decide

/-- The profile of a mode names no mode. -/
theorem lookup_profile_mode (m : Mode) : Value.lookup m.profile "scan_mode" = none := by
  cases m <;> rfl

end Mode

namespace Config

/-- The value of a setting, by the names of its section and itself. -/
def setting? (c : Config) (part name : Text) : Option Value :=
  ((c.toValue.entries?.bind fun es => Value.lookup es part).bind Value.entries?).bind fun es =>
    Value.lookup es name

/-- The names of the sections. -/
def partNames : List Text := ["scanners", "files", "performance", "gate", "output", "logging"]

/-- The layer of the file of settings, if there is one. -/
def foundLayer (d : Disk) (path : Value) : Attempt (List (Value × Value)) :=
  filePath? d path >>= fun
    | some p => fileLayer d p
    | none => .ok []

/-- The layer of the command line; what counts as false sets nothing. -/
def commandLineLayer (upper : Value) : Attempt (List (Value × Value)) :=
  if upper.isTrue then
    match upper.entries? with
    | some entries => .ok entries
    | none => .error (.partMissing upper.kindName "items")
  else .ok []

/-- The layers of settings, the highest first: the command line, the file, the environment and the
defaults. -/
def layers (e : Environment) (d : Disk) (path upper : Value) :
    Attempt (List (List (Value × Value))) :=
  environmentLayer e >>= fun environment => foundLayer d path >>= fun file =>
    (commandLineLayer upper).map fun commandLine => [commandLine, file, environment, defaults]

/-- The settings of all layers and of the profile of their mode below them. -/
def settingsOf (e : Environment) (d : Disk) (path upper : Value) : Attempt (List (Value × Value)) :=
  layers e d path upper >>= fun ls => underMode (Value.laid ls)

variable {e : Environment} {d : Disk} {path upper : Value}

/-- The command line is the layer that is laid over the others. -/
theorem underCommandLine_eq (environment file : List (Value × Value)) (upper : Value) :
    underCommandLine
        (Value.mergeEntries (Value.mergeEntries defaults environment) file) upper =
      (commandLineLayer upper).map fun commandLine =>
        Value.laid [commandLine, file, environment, defaults] := by
  unfold underCommandLine commandLineLayer
  split
  · cases upper.entries? <;> rfl
  · rfl

/-- A configuration is read off the settings, and stands if its threshold can be one. -/
theorem load_eq : load e d path upper = settingsOf e d path upper >>= fun settings =>
    ofSettings settings >>= fun c => checkThreshold c.gate.failOn >>= fun _ => return c := by
  have hover (environment file : List (Value × Value))
      (next : List (Value × Value) → Attempt Config) :
      (underCommandLine (Value.mergeEntries (Value.mergeEntries defaults environment) file) upper
        >>= next) =
      ((commandLineLayer upper).map fun commandLine => [commandLine, file, environment, defaults])
        >>= fun ls => next (Value.laid ls) := by
    rw [underCommandLine_eq]
    cases commandLineLayer upper <;> rfl
  -- The layers are read in one order on both sides; the merges between the readings cannot fail.
  unfold load settingsOf layers
  simp only [bind_assoc]
  refine Attempt.bind_congr_ok fun environment _ => ?_
  unfold foundLayer
  cases filePath? d path with
  | error f => rfl
  | ok place =>
    cases place with
    | none => exact hover environment [] _
    | some p =>
      change fileLayer d p >>= _ = fileLayer d p >>= _
      exact Attempt.bind_congr_ok fun file _ => hover environment file _

/-- Named settings, with the values that entries give to their names. -/
def filled (es : List (Value × Value)) (fields : List (Text × Value)) : List (Text × Value) :=
  fields.map fun f => (f.1, setting es f.1 f.2)

/-- A name has the value that entries give it, or its own. -/
theorem lookup_filled (es : List (Value × Value)) (fields : List (Text × Value)) (name : Text) :
    Value.lookup ((filled es fields).map fun f => (.text f.1, f.2)) name =
      (Value.lookup (fields.map fun f => (.text f.1, f.2)) name).map (setting es name ·) := by
  induction fields with
  | nil => rfl
  | cons f r ih =>
    have ih' : Value.lookup ((r.map fun f => (f.1, setting es f.1 f.2)).map
        fun f => (.text f.1, f.2)) name = _ := ih
    unfold filled
    rw [List.map_cons, List.map_cons, List.map_cons, Value.lookup_cons, Value.lookup_cons, ih']
    by_cases hname : f.1 = name
    · simp [Value.isText, Value.text?, hname]
    · simp [Value.isText, Value.text?, hname]

/-- A section is read off settings, or is empty. -/
theorem sectionOf_of_entries {settings : List (Value × Value)} {part : Text} {v : Value}
    {es : List (Value × Value)} (hv : Value.lookup settings part = some v)
    (hes : v.entries? = some es) : sectionOf settings part = .ok es := by
  have hfield : Value.field settings part = v := by rw [Value.field, hv, Option.getD_some]
  unfold sectionOf
  rw [hfield]
  cases v with
  | null => cases hes
  | _ => simp only [hes]

/-- A section that is nothing is empty. -/
theorem sectionOf_of_null {settings : List (Value × Value)} {part : Text}
    (hv : Value.lookup settings part = none ∨ Value.lookup settings part = some .null) :
    sectionOf settings part = .ok [] := by
  have hfield : Value.field settings part = .null := by
    rcases hv with hv | hv <;> rw [Value.field, hv] <;> rfl
  unfold sectionOf
  rw [hfield]

/-- A section that is neither nothing nor a mapping is a fault. -/
theorem sectionOf_of_plain {settings : List (Value × Value)} {part : Text} {v : Value}
    (hv : Value.lookup settings part = some v) (hnull : v ≠ .null) (hes : v.entries? = none) :
    sectionOf settings part = .error (.sectionShape part v.kindName) := by
  have hfield : Value.field settings part = v := by rw [Value.field, hv, Option.getD_some]
  unfold sectionOf
  rw [hfield]
  cases v with
  | null => exact absurd rfl hnull
  | _ => simp only [hes]

/-- Settings describe a configuration if their sections can be had and pass the checks. -/
theorem ofSettings_eq_ok_iff {s : List (Value × Value)} {c : Config} :
    ofSettings s = .ok c ↔ ∃ scanners files performance gate output logging,
      sectionOf s "scanners" = .ok scanners ∧ checkNames scanners = .ok () ∧
      sectionOf s "files" = .ok files ∧
      sectionOf s "performance" = .ok performance ∧ checkNames performance = .ok () ∧
      sectionOf s "gate" = .ok gate ∧
      sectionOf s "output" = .ok output ∧ checkNames output = .ok () ∧
      sectionOf s "logging" = .ok logging ∧ checkNames logging = .ok () ∧
      ⟨if (Value.field s "scan_mode").isTrue then Value.field s "scan_mode"
          else .text "balanced", scannersOf scanners, filesOf files,
        setting performance "workers" (.int 1), gateOf gate, outputOf output,
        loggingOf logging⟩ = c := by
  unfold ofSettings
  simp only [Attempt.bind_eq_ok_iff]
  constructor
  · rintro ⟨scanners, hs, ⟨⟩, hcs, files, hf, performance, hp, ⟨⟩, hcp, gate, hg, output, ho, ⟨⟩,
      hco, logging, hl, ⟨⟩, hcl, h⟩
    exact ⟨scanners, files, performance, gate, output, logging, hs, hcs, hf, hp, hcp, hg, ho, hco,
      hl, hcl, Except.ok.inj h⟩
  · rintro ⟨scanners, files, performance, gate, output, logging, hs, hcs, hf, hp, hcp, hg, ho, hco,
      hl, hcl, rfl⟩
    exact ⟨scanners, hs, (), hcs, files, hf, performance, hp, (), hcp, gate, hg, output, ho, (),
      hco, logging, hl, (), hcl, rfl⟩

/-- The sections of settings that describe a configuration, and the configuration. -/
theorem of_ofSettings {settings : List (Value × Value)} {c : Config}
    (h : ofSettings settings = .ok c) : ∃ scanners files performance gate output logging,
      sectionOf settings "scanners" = .ok scanners ∧ sectionOf settings "files" = .ok files ∧
      sectionOf settings "performance" = .ok performance ∧ sectionOf settings "gate" = .ok gate ∧
      sectionOf settings "output" = .ok output ∧ sectionOf settings "logging" = .ok logging ∧
      c = ⟨if (Value.field settings "scan_mode").isTrue then Value.field settings "scan_mode"
          else .text "balanced", scannersOf scanners, filesOf files,
        setting performance "workers" (.int 1), gateOf gate, outputOf output,
        loggingOf logging⟩ := by
  obtain ⟨scanners, files, performance, gate, output, logging, hscanners, -, hfiles, hperformance,
    -, hgate, houtput, -, hlogging, -, rfl⟩ := ofSettings_eq_ok_iff.mp h
  exact ⟨scanners, files, performance, gate, output, logging, hscanners, hfiles, hperformance,
    hgate, houtput, hlogging, rfl⟩

/-- A setting that there is by default is in one of the sections. -/
theorem mem_partNames_of_setting? {part name : Text} {v : Value}
    (h : ({} : Config).setting? part name = some v) : part ∈ partNames := by
  obtain ⟨es, hes, -⟩ := Option.bind_eq_some_iff.mp h
  obtain ⟨w, hw, hes⟩ := Option.bind_eq_some_iff.mp hes
  obtain ⟨x, hx, rfl⟩ := Option.map_eq_some_iff.mp hw
  have hkey : x.1 = .text part := Value.eq_of_find? hx
  have hmem := List.mem_of_find?_eq_some hx
  simp only [named, List.map_cons, List.map_nil, List.mem_cons, List.not_mem_nil, or_false] at hmem
  rcases hmem with rfl | rfl | rfl | rfl | rfl | rfl | rfl
  · cases hes
  all_goals
    cases hkey
    decide

/-- A setting has the value that its section gives it, or its own. -/
theorem setting?_of_ofSettings {settings : List (Value × Value)} {c : Config}
    (h : ofSettings settings = .ok c) {part name : Text} {v : Value}
    (hv : ({} : Config).setting? part name = some v) :
    ∃ es, sectionOf settings part = .ok es ∧ c.setting? part name = some (setting es name v) := by
  obtain ⟨scanners, files, performance, gate, output, logging, hscanners, hfiles, hperformance,
    hgate, houtput, hlogging, rfl⟩ := of_ofSettings h
  have hfill (es : List (Value × Value)) (fields : List (Text × Value))
      (hf : Value.lookup (fields.map fun f => (.text f.1, f.2)) name = some v) :
      Value.lookup ((filled es fields).map fun f => (.text f.1, f.2)) name =
        some (setting es name v) := by
    rw [lookup_filled, hf]
    rfl
  have hpart := mem_partNames_of_setting? hv
  simp only [partNames, List.mem_cons, List.not_mem_nil, or_false] at hpart
  -- The parts differ in their fields only, and each is filled in the same way.
  rcases hpart with rfl | rfl | rfl | rfl | rfl | rfl
  · exact ⟨scanners, hscanners, hfill scanners ({} : ScannerSettings).fields hv⟩
  · exact ⟨files, hfiles, hfill files [("markdown_extensions", _), ("script_extensions", _),
      ("max_file_size_kb", _), ("skip_dirs", _)] hv⟩
  · exact ⟨performance, hperformance, hfill performance [("workers", _)] hv⟩
  · exact ⟨gate, hgate, hfill gate [("fail_on", _), ("targets", _)] hv⟩
  · exact ⟨output, houtput, hfill output [("format", _), ("output_file", _), ("verbose", _)] hv⟩
  · exact ⟨logging, hlogging, hfill logging [("level", _), ("file", _)] hv⟩

/-- The defaults have each text key once. -/
theorem isKeyed_defaults : Value.IsKeyed (.map defaults) := by
  refine .map (by decide) fun e he => ?_
  simp only [defaults, List.mem_cons, List.not_mem_nil, or_false] at he
  rcases he with rfl | rfl | rfl | rfl | rfl
  · exact .other (by decide)
  all_goals exact .of_plain (by decide) (by decide)

/-- A mapping of one name to a plain value has each text key once. -/
theorem isKeyed_named (name : Text) {v : Value} (hv : v.IsPlain) :
    Value.IsKeyed (named [(name, v)]) :=
  .of_plain (by simp [Value.KeysOnce, Value.text?]) (by simpa using hv)

/-- Entries are those of a variable of the environment: they set a key, or nothing. -/
def Sets (key : Text) (es : List (Value × Value)) : Prop :=
  es = [] ∨ ∃ v, es = [(.text key, v)] ∧ v.IsKeyed

/-- A variable sets nothing but its key. -/
theorem Sets.keys_sublist {key : Text} {es : List (Value × Value)} (h : Sets key es) :
    (es.map (·.1)).Sublist [.text key] := by
  rcases h with rfl | ⟨v, rfl, -⟩
  · exact List.nil_sublist _
  · exact List.Sublist.refl _

/-- A variable sets its key to what has each text key once. -/
theorem Sets.isKeyed_of_mem {key : Text} {es : List (Value × Value)} (h : Sets key es) :
    ∀ e ∈ es, e.2.IsKeyed := by
  rcases h with rfl | ⟨v, rfl, hv⟩
  · simp
  · simpa using hv

/-- The environment is four variables with a key each. -/
theorem sets_of_environmentLayer {es : List (Value × Value)} (h : environmentLayer e = .ok es) :
    ∃ mode workers verbose level, es = mode ++ workers ++ verbose ++ level ∧
      Sets "scan_mode" mode ∧ Sets "performance" workers ∧ Sets "output" verbose ∧
      Sets "logging" level := by
  have hunless (key : Text) (c : Prop) [Decidable c] {v : Value} (hv : v.IsKeyed) :
      Sets key (if c then [] else [(.text key, v)]) := by
    split
    · exact .inl rfl
    · exact .inr ⟨v, rfl, hv⟩
  have hmode := hunless "scan_mode" (e.mode.isEmpty = true) (v := .text e.mode)
    (.other (by simp [Value.IsPlain]))
  have hlevel := hunless "logging" (e.level.isEmpty = true)
    (isKeyed_named "level" (v := .text e.level) (by simp [Value.IsPlain]))
  have hverbose : Sets "output" (if yesWords.contains e.verbose.lower then
      [(.text "output", named [("verbose", .bool true)])] else []) := by
    split
    · exact .inr ⟨_, rfl, isKeyed_named "verbose" (by decide)⟩
    · exact .inl rfl
  unfold environmentLayer at h
  dsimp only at h
  -- Only the number of workers is read from its variable, which may fail.
  split at h
  · rw [pure_bind] at h
    cases h
    exact ⟨_, [], _, _, rfl, hmode, .inl rfl, hverbose, hlevel⟩
  · obtain ⟨n, -, h⟩ := Attempt.bind_eq_ok_iff.mp h
    rw [pure_bind] at h
    cases h
    exact ⟨_, _, _, _, rfl, hmode,
      .inr ⟨_, rfl, isKeyed_named "workers" (v := .int n) (by simp [Value.IsPlain])⟩, hverbose,
      hlevel⟩

/-- The environment sets each key once. -/
theorem isKeyed_environmentLayer {es : List (Value × Value)} (h : environmentLayer e = .ok es) :
    Value.IsKeyed (.map es) := by
  obtain ⟨mode, workers, verbose, level, rfl, hmode, hworkers, hverbose, hlevel⟩ :=
    sets_of_environmentLayer h
  have hkeys : Value.KeysOnce ([(.text "scan_mode", ()), (.text "performance", ()),
      (.text "output", ()), (.text "logging", ())] : List (Value × Unit)) := by decide
  refine .map (hkeys.of_sublist ?_) ?_
  · simp only [List.map_append]
    exact ((hmode.keys_sublist.append hworkers.keys_sublist).append hverbose.keys_sublist).append
      hlevel.keys_sublist
  · intro x hx
    simp only [List.mem_append] at hx
    rcases hx with ((hx | hx) | hx) | hx
    · exact hmode.isKeyed_of_mem x hx
    · exact hworkers.isKeyed_of_mem x hx
    · exact hverbose.isKeyed_of_mem x hx
    · exact hlevel.isKeyed_of_mem x hx

/-- A file sets each text key of its mappings once. -/
theorem isKeyed_foundLayer {es : List (Value × Value)} (h : foundLayer d path = .ok es) :
    Value.IsKeyed (.map es) := by
  unfold foundLayer at h
  obtain ⟨place, -, h⟩ := Attempt.bind_eq_ok_iff.mp h
  cases place with
  | none =>
    cases h
    exact Value.isKeyed_nil
  | some p =>
    change fileLayer d p = .ok es at h
    unfold fileLayer at h
    split at h
    · cases h
      exact Value.isKeyed_nil
    · cases h
    · split at h
      · cases h
      · split at h
        · cases h
          exact Value.isKeyed_nil
        · cases h
        · rename_i v hv
          cases h
          -- What is read from YAML has each key once; anything but a mapping counts as nothing.
          cases hes : v.entries? with
          | none => exact Value.isKeyed_nil
          | some es => exact Value.isKeyed_map_iff.mpr ((Yaml.isKeyed_of_load hv).entries hes)

/-- The command line sets each text key once, if the mapping does that is given. -/
theorem isKeyed_commandLineLayer (hu : upper.IsKeyed) {es : List (Value × Value)}
    (h : commandLineLayer upper = .ok es) : Value.IsKeyed (.map es) := by
  unfold commandLineLayer at h
  split at h
  · split at h
    · rename_i hes
      cases h
      exact Value.isKeyed_map_iff.mpr (hu.entries hes)
    · cases h
  · cases h
    exact Value.isKeyed_nil

/-- Every layer sets each text key once. -/
theorem isKeyed_of_mem_layers (hu : upper.IsKeyed) {ls : List (List (Value × Value))}
    (h : layers e d path upper = .ok ls) : ∀ layer ∈ ls, Value.IsKeyed (.map layer) := by
  obtain ⟨environment, he, h⟩ := Attempt.bind_eq_ok_iff.mp h
  obtain ⟨file, hf, h⟩ := Attempt.bind_eq_ok_iff.mp h
  obtain ⟨commandLine, hc, rfl⟩ := Attempt.map_eq_ok_iff.mp h
  simp only [List.forall_mem_cons, List.not_mem_nil, false_implies, implies_true, and_true]
  exact ⟨isKeyed_commandLineLayer hu hc, isKeyed_foundLayer hf, isKeyed_environmentLayer he,
    isKeyed_defaults⟩

/-- The settings are the layers laid over the profile of the mode that the layers name. -/
theorem of_settingsOf {settings : List (Value × Value)}
    (h : settingsOf e d path upper = .ok settings) : ∃ ls m, layers e d path upper = .ok ls ∧
      Mode.ofValue ((Value.lookup (Value.laid ls) "scan_mode").getD (.text "balanced")) = .ok m ∧
      settings = Value.laid [Value.laid ls, m.profile] := by
  obtain ⟨ls, hls, h⟩ := Attempt.bind_eq_ok_iff.mp h
  obtain ⟨m, hm, h⟩ := Attempt.bind_eq_ok_iff.mp h
  cases h
  exact ⟨ls, m, hls, hm, by cases m <;> rfl⟩

/-- A section of mappings laid over one another gives a name what is settled for it. -/
theorem lookup_section_laid {ls : List (List (Value × Value))}
    (hk : ∀ layer ∈ ls, Value.IsKeyed (.map layer)) {part name : Text} {es : List (Value × Value)}
    (hes : sectionOf (Value.laid ls) part = .ok es)
    (hplain : Value.IsPlainIn name (Value.values ls part)) :
    Value.lookup es name = Value.settled name (Value.values ls part) := by
  have hlaid := Value.lookup_laid hk part
  have hvalues : ∀ v ∈ Value.values ls part, v.IsKeyed := fun v => Value.isKeyed_of_mem_values hk
  cases hvs : Value.values ls part with
  | nil =>
    rw [hvs] at hlaid
    cases (sectionOf_of_null (.inl hlaid)).symm.trans hes
    rfl
  | cons v lower =>
    rw [hvs] at hlaid hvalues hplain
    -- The highest layer that has the section decides: null is nothing, another value is no section,
    -- and with entries the layers below are merged in.
    cases hv : v.entries? with
    | none =>
      rw [Value.stacked_of_plain (.inl hv)] at hlaid
      have hsettled : Value.settled name (v :: lower) = none := by rw [Value.settled, hv]
      by_cases hnull : v = .null
      · rw [hnull] at hlaid
        cases (sectionOf_of_null (.inr hlaid)).symm.trans hes
        exact hsettled.symm
      · cases (sectionOf_of_plain hlaid hnull hv).symm.trans hes
    | some ves =>
      obtain ⟨m, hm, hlookup⟩ := Value.stacked_settled hvalues rfl hv
      obtain ⟨w, hw, hm⟩ := Option.bind_eq_some_iff.mp hm
      cases (sectionOf_of_entries (hlaid.trans hw) hm).symm.trans hes
      exact hlookup name hplain

/-- Layers laid over a profile, and the profile, have each text key once. -/
theorem isKeyed_over_profile {ls : List (List (Value × Value))}
    (hk : ∀ layer ∈ ls, Value.IsKeyed (.map layer)) (m : Mode) :
    ∀ layer ∈ [Value.laid ls, m.profile], Value.IsKeyed (.map layer) := by
  simpa using ⟨Value.isKeyed_laid hk, m.isKeyed_profile⟩

/-- Where a section of layers laid over a profile is one, the highest layer with the section has
nothing there, if it has no mapping. -/
theorem isNull_of_section {ls : List (List (Value × Value))}
    (hk : ∀ layer ∈ ls, Value.IsKeyed (.map layer)) (m : Mode) {part : Text}
    {es : List (Value × Value)}
    (hes : sectionOf (Value.laid [Value.laid ls, m.profile]) part = .ok es) {v : Value}
    (hv : (Value.values ls part).head? = some v) (hplain : v.entries? = none) : v = .null := by
  obtain ⟨lower, hvs⟩ := List.head?_eq_some_iff.mp hv
  have hboth := isKeyed_over_profile hk m
  have hlaid := Value.lookup_laid hboth part
  rw [Value.values_cons, Value.lookup_laid hk, hvs, Value.stacked_of_plain (.inl hplain),
    Option.toList_some, List.singleton_append, Value.stacked_of_plain (.inl hplain)] at hlaid
  by_contra hnull
  cases (sectionOf_of_plain hlaid hnull hplain).symm.trans hes

/-- A section of layers laid over a profile gives a name what is settled for it by the layers, or by
the profile; where the highest layer with the section gives it nothing, the section is empty. -/
theorem lookup_section {ls : List (List (Value × Value))}
    (hk : ∀ layer ∈ ls, Value.IsKeyed (.map layer)) (m : Mode) {part name : Text}
    {es : List (Value × Value)}
    (hes : sectionOf (Value.laid [Value.laid ls, m.profile]) part = .ok es)
    (hplain : Value.IsPlainIn name (Value.values ls part)) :
    Value.lookup es name =
      if (Value.values ls part).head?.any Value.isNull then none
      else (Value.settled name (Value.values ls part)).or
        (Value.settled name (Value.values [m.profile] part)) := by
  have hboth := isKeyed_over_profile hk m
  have hvalues : ∀ v ∈ Value.values ls part, v.IsKeyed := fun v => Value.isKeyed_of_mem_values hk
  have hsection := @lookup_section_laid _ hboth part name es hes
  rw [Value.values_cons, Value.lookup_laid hk, Value.settled_stacked hvalues hplain] at hsection
  have hstacked := Value.isPlainIn_stacked hvalues hplain
  rw [hsection (List.forall_mem_append.mpr ⟨hstacked, m.isPlainIn_profile part name⟩)]
  -- What is no mapping at the top can only be nothing.
  have htop : (Value.values ls part).head?.any (·.entries?.isNone) =
      (Value.values ls part).head?.any Value.isNull := by
    cases hv : (Value.values ls part).head? with
    | none => rfl
    | some v =>
      rw [Option.any_some, Option.any_some]
      cases hes' : v.entries? with
      | none =>
        rw [isNull_of_section hk m hes hv hes']
        rfl
      | some _ =>
        cases v with
        | null => cases hes'
        | _ => rfl
  rw [htop]

end Config

end SurfaceAudit
