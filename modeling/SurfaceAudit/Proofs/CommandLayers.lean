import SurfaceAudit.CommandLine.Arguments
import SurfaceAudit.Proofs.Settings

/-!
# The layer of the command line

The options of a scan make the highest layer of settings, which sets each key once
(`CommandLine.isKeyed_layer`). Two command lines that ask for the same scan, and differ at most in
how it is presented, make layers that differ in the output alone (`CommandLine.lookup_layer_eq`), so
that the configurations that are loaded from them do so too (`Config.same_but_output`). The format
that is given on the command line is in force, whatever the other layers have (`Config.format_eq`).
-/

namespace SurfaceAudit

namespace Value

/-- The value of a key among entries in a row is that among the first ones, if these have the
key. -/
theorem lookup_append (es fs : List (Value × Value)) (key : Text) :
    lookup (es ++ fs) key = (lookup es key).or (lookup fs key) := by
  unfold lookup
  rw [List.find?_append]
  cases es.find? (·.1.isText key) <;> rfl

end Value

namespace Config

/-- What sets one key has nothing for another. -/
theorem Sets.lookup_eq_none {name key : Text} {es : List (Value × Value)} (h : Sets name es)
    (hne : key ≠ name) : Value.lookup es key = none := by
  rcases h with rfl | ⟨v, rfl, -⟩
  · rfl
  · simp [Value.lookup, Value.isText, Value.text?, hne.symm]

/-- Entries in a row, each of which set a key of their own, set each key once. -/
theorem isKeyed_flatten (names : List Text) {parts : List (List (Value × Value))}
    (hnames : names.Nodup) (h : List.Forall₂ Sets names parts) :
    Value.IsKeyed (.map parts.flatten) := by
  -- Each part has the one key that is its own at most, so the keys in a row are some of the names.
  have hkeys : (parts.flatten.map (·.1)).Sublist (names.map Value.text) := by
    clear hnames
    induction h with
    | nil => exact List.nil_sublist _
    | cons hset _ ih =>
      rw [List.flatten_cons, List.map_append]
      exact hset.keys_sublist.append ih
  have honce : Value.KeysOnce (names.map fun name => (Value.text name, ())) := by
    unfold Value.KeysOnce
    rw [List.filterMap_map]
    simpa [Function.comp_def, Value.text?] using hnames
  refine .map (honce.of_sublist ?_) ?_
  · rw [List.map_map]
    exact hkeys
  · clear hnames hkeys honce
    induction h with
    | nil => simp
    | cons hset _ ih =>
      rw [List.flatten_cons, List.forall_mem_append]
      exact ⟨hset.isKeyed_of_mem, ih⟩

end Config

namespace CommandLine

open Config

/-- A setting sets its name, or nothing. -/
theorem sets_setting? (name : Text) {v : Option Value} (h : ∀ w ∈ v, w.IsKeyed) :
    Sets name (setting? name v) := by
  cases v with
  | none => exact .inl rfl
  | some w => exact .inr ⟨w, rfl, h w rfl⟩

/-- A setting that is a text, if there is one, sets its name, or nothing. -/
theorem sets_text (name : Text) (t : Option Text) : Sets name (setting? name (t.map .text)) := by
  refine sets_setting? name fun w hw => ?_
  obtain ⟨t, -, rfl⟩ := Option.map_eq_some_iff.mp hw
  exact .other (by simp [Value.IsPlain])

/-- Settings in a group set the name of the group, or nothing. -/
theorem sets_group? (name : Text) {es : List (Value × Value)} (h : Value.IsKeyed (.map es)) :
    Sets name (group? name es) := by
  unfold group?
  split
  · exact .inl rfl
  · exact .inr ⟨_, rfl, h⟩

section Parts

variable (r : Reading ScanKey)

/-- The part of the layer that is about the mode. -/
def modePart : List (Value × Value) := setting? "scan_mode" ((r.value? .mode).map .text)

/-- The part of the layer that is about the number of tasks. -/
def workersPart : List (Value × Value) :=
  group? "performance" (setting? "workers" ((r.int? .workers).map .int))

/-- The settings for the output. -/
def outputSettings : List (Value × Value) :=
  setting? "format" ((r.value? .format).map .text) ++
    setting? "output_file" ((r.text? .outputFile).map .text) ++
    setting? "verbose" (if r.has .verbose then some (.bool true) else none)

/-- The part of the layer that is about the output. -/
def outputPart : List (Value × Value) := group? "output" (outputSettings r)

/-- The settings for the gate. -/
def gateSettings : List (Value × Value) :=
  setting? "fail_on" ((r.value? .failOn).map .text) ++
    setting? "targets"
      (if (r.values .target).isEmpty then none else some (.list ((r.values .target).map .text)))

/-- The part of the layer that is about the gate. -/
def gatePart : List (Value × Value) := group? "gate" (gateSettings r)

/-- The layer is made of its parts. -/
theorem layer_eq : layer r = [modePart r, workersPart r, outputPart r, gatePart r].flatten := by
  simp [layer, modePart, workersPart, outputPart, outputSettings, gatePart, gateSettings]

/-- The part about the mode sets `scan_mode` or nothing. -/
theorem sets_modePart : Sets "scan_mode" (modePart r) := sets_text _ _

/-- The part about the workers sets `performance` or nothing. -/
theorem sets_workersPart : Sets "performance" (workersPart r) := by
  have hworkers : Sets "workers" (setting? "workers" ((r.int? .workers).map .int)) := by
    refine sets_setting? _ fun w hw => ?_
    obtain ⟨n, -, rfl⟩ := Option.map_eq_some_iff.mp hw
    exact .other (by simp [Value.IsPlain])
  have hkeyed := isKeyed_flatten ["workers"] (by decide) (.cons hworkers .nil)
  exact sets_group? _ (by simpa using hkeyed)

/-- The settings for the output set each key once. -/
theorem isKeyed_outputSettings : Value.IsKeyed (.map (outputSettings r)) := by
  have hverbose : Sets "verbose"
      (setting? "verbose" (if r.has .verbose then some (.bool true) else none)) := by
    refine sets_setting? _ fun w hw => ?_
    split at hw
    · cases hw
      exact .other (by simp [Value.IsPlain])
    · cases hw
  have hkeyed := isKeyed_flatten ["format", "output_file", "verbose"] (by decide)
    (.cons (sets_text _ (r.value? .format))
      (.cons (sets_text _ (r.text? .outputFile)) (.cons hverbose .nil)))
  unfold outputSettings
  simpa using hkeyed

/-- The part about the output sets `output` or nothing. -/
theorem sets_outputPart : Sets "output" (outputPart r) := sets_group? _ (isKeyed_outputSettings r)

/-- The part about the gate sets `gate` or nothing. -/
theorem sets_gatePart : Sets "gate" (gatePart r) := by
  have htargets : Sets "targets" (setting? "targets"
      (if (r.values .target).isEmpty then none
        else some (.list ((r.values .target).map .text)))) := by
    refine sets_setting? _ fun w hw => ?_
    split at hw
    · cases hw
    · cases hw
      exact .other (by simp [Value.IsPlain])
  have hkeyed := isKeyed_flatten ["fail_on", "targets"] (by decide)
    (.cons (sets_text _ (r.value? .failOn)) (.cons htargets .nil))
  refine sets_group? _ ?_
  unfold gateSettings
  simpa using hkeyed

/-- The layer of a command line sets each key once. -/
theorem isKeyed_layer : Value.IsKeyed (.map (layer r)) := by
  rw [layer_eq]
  exact isKeyed_flatten ["scan_mode", "performance", "output", "gate"] (by decide)
    (.cons (sets_modePart r) (.cons (sets_workersPart r)
      (.cons (sets_outputPart r) (.cons (sets_gatePart r) .nil))))

/-- A format that is given is among the settings for the output. -/
theorem lookup_format {f : Text} (h : r.value? .format = some f) :
    ∃ es, Value.lookup (layer r) "output" = some (.map es) ∧
      Value.lookup es "format" = some (.text f) := by
  -- The format comes first among the settings for the output, so there are some and it is found.
  have hfirst : outputSettings r = (.text "format", .text f) ::
      (setting? "output_file" ((r.text? .outputFile).map .text) ++
        setting? "verbose" (if r.has .verbose then some (.bool true) else none)) := by
    unfold outputSettings
    rw [h]
    rfl
  refine ⟨outputSettings r, ?_, ?_⟩
  · have hpart : outputPart r = [(.text "output", .map (outputSettings r))] := by
      unfold outputPart group?
      rw [hfirst]
      rfl
    rw [layer_eq, List.flatten_cons, List.flatten_cons, List.flatten_cons, Value.lookup_append,
      Value.lookup_append, Value.lookup_append, (sets_modePart r).lookup_eq_none (by decide),
      (sets_workersPart r).lookup_eq_none (by decide), hpart]
    rfl
  · rw [hfirst]
    rfl

end Parts

/-- An option is about the presentation of a scan alone. -/
def ScanKey.isPresentation : ScanKey → Bool
  | .format | .verbose | .quiet => true
  | _ => false

/-- Two command lines ask for the same scan: they have the same path, and the same options but for
the presentation. -/
structure Reading.AsksAlike (r r' : Reading ScanKey) : Prop where
  /-- The paths are the same. -/
  word : r.word = r'.word
  /-- The other options are the same, in order. -/
  given : r.given.filter (!·.1.isPresentation) = r'.given.filter (!·.1.isPresentation)

variable {r r' : Reading ScanKey}

/-- The values of other options are the same. -/
theorem Reading.AsksAlike.values_eq (h : r.AsksAlike r') {k : ScanKey}
    (hk : k.isPresentation = false) : r.values k = r'.values k := by
  have hfilter (given : List (ScanKey × Text)) :
      (given.filter (!·.1.isPresentation)).filter (·.1 == k) = given.filter (·.1 == k) := by
    -- An option with the key is not about the presentation, so that it is kept.
    rw [List.filter_filter]
    refine List.filter_congr fun e _ => ?_
    cases hek : e.1 == k with
    | false => rfl
    | true => simp [eq_of_beq hek, hk]
  unfold Reading.values
  rw [← hfilter r.given, ← hfilter r'.given, h.given]

/-- The layers of command lines that ask for the same scan differ in the output alone. -/
theorem lookup_layer_eq (h : r.AsksAlike r') {key : Text} (hkey : key ≠ "output") :
    Value.lookup (layer r) key = Value.lookup (layer r') key := by
  have hvalue {k : ScanKey} (hk : k.isPresentation = false) : r.value? k = r'.value? k := by
    unfold Reading.value?
    rw [h.values_eq hk]
  have hmode : modePart r = modePart r' := by
    unfold modePart
    rw [hvalue rfl]
  have hworkers : workersPart r = workersPart r' := by
    unfold workersPart Reading.int?
    rw [hvalue rfl]
  have hgate : gatePart r = gatePart r' := by
    unfold gatePart gateSettings
    rw [hvalue rfl, h.values_eq rfl]
  simp only [layer_eq, List.flatten_cons, Value.lookup_append, hmode, hworkers, hgate,
    (sets_outputPart _).lookup_eq_none hkey]

end CommandLine

namespace Config

variable {e : Environment} {d : Disk} {path : Value} {es es' : List (Value × Value)}
  {c c' : Config}

/-- The settings that are laid over the others are those of the command line, if there are any. -/
theorem commandLineLayer_eq (es : List (Value × Value)) :
    commandLineLayer (if es.isEmpty then .null else .map es) = .ok es := by
  cases es <;> rfl

/-- A configuration is read off layers with the settings of the command line on top. -/
theorem exists_layers (hk : Value.IsKeyed (.map es))
    (h : load e d path (if es.isEmpty then .null else .map es) = .ok c) :
    ∃ environment file m, environmentLayer e = .ok environment ∧ foundLayer d path = .ok file ∧
      (∀ layer ∈ [es, file, environment, defaults], Value.IsKeyed (.map layer)) ∧
      Mode.ofValue ((Value.lookup (Value.laid [es, file, environment, defaults])
        "scan_mode").getD (.text "balanced")) = .ok m ∧
      ofSettings (Value.laid [Value.laid [es, file, environment, defaults], m.profile]) =
        .ok c := by
  -- The top layer is null if nothing is set, and null has no keys.
  have hupper : Value.IsKeyed (if es.isEmpty then .null else .map es) := by
    split
    · exact .other (by simp [Value.IsPlain])
    · exact hk
  rw [load_eq] at h
  obtain ⟨settings, hs, h⟩ := Attempt.bind_eq_ok_iff.mp h
  obtain ⟨c', hc', h⟩ := Attempt.bind_eq_ok_iff.mp h
  obtain ⟨-, -, h⟩ := Attempt.bind_eq_ok_iff.mp h
  cases h
  obtain ⟨ls, m, hls, hm, rfl⟩ := of_settingsOf hs
  have hkeyed := isKeyed_of_mem_layers hupper hls
  obtain ⟨environment, he, hls⟩ := Attempt.bind_eq_ok_iff.mp hls
  obtain ⟨file, hf, hls⟩ := Attempt.bind_eq_ok_iff.mp hls
  obtain ⟨commandLine, hcl, rfl⟩ := Attempt.map_eq_ok_iff.mp hls
  cases (commandLineLayer_eq es).symm.trans hcl
  exact ⟨environment, file, m, he, hf, hkeyed, hm, hc'⟩

/-- Settings are the same but for the output. -/
def AgreeButOutput (es es' : List (Value × Value)) : Prop :=
  ∀ key : Text, key ≠ "output" → Value.lookup es key = Value.lookup es' key

/-- Settings that are the same but for the output are so after both were laid over others. -/
theorem AgreeButOutput.laid (h : AgreeButOutput es es') {lower : List (List (Value × Value))}
    (hk : ∀ layer ∈ es :: lower, Value.IsKeyed (.map layer))
    (hk' : ∀ layer ∈ es' :: lower, Value.IsKeyed (.map layer)) :
    AgreeButOutput (Value.laid (es :: lower)) (Value.laid (es' :: lower)) := by
  intro key hkey
  rw [Value.lookup_laid hk, Value.lookup_laid hk', Value.values_cons es, Value.values_cons es',
    h key hkey]

/-- Configurations that are described by settings which are the same but for the output are so,
too. -/
theorem AgreeButOutput.ofSettings {settings settings' : List (Value × Value)}
    (h : AgreeButOutput settings settings') (hc : ofSettings settings = .ok c)
    (hc' : ofSettings settings' = .ok c') : c' = { c with output := c'.output } := by
  have hfield {key : Text} (hkey : key ≠ "output") :
      Value.field settings key = Value.field settings' key := by
    unfold Value.field
    rw [h key hkey]
  -- All parts but the output are read off sections that are the same.
  have hsection {part : Text} (hpart : part ≠ "output") :
      sectionOf settings part = sectionOf settings' part := by
    unfold sectionOf
    rw [hfield hpart]
  obtain ⟨scanners, files, performance, gate, output, logging, hscanners, hfiles, hperformance,
    hgate, -, hlogging, rfl⟩ := of_ofSettings hc
  obtain ⟨scanners', files', performance', gate', output', logging', hscanners', hfiles',
    hperformance', hgate', -, hlogging', rfl⟩ := of_ofSettings hc'
  rw [← hsection (by decide)] at hscanners' hfiles' hperformance' hgate' hlogging'
  cases hscanners.symm.trans hscanners'
  cases hfiles.symm.trans hfiles'
  cases hperformance.symm.trans hperformance'
  cases hgate.symm.trans hgate'
  cases hlogging.symm.trans hlogging'
  rw [hfield (by decide)]

/-- If the settings of two command lines differ in the output alone, so do the configurations that
are loaded with them. -/
theorem same_but_output (hk : Value.IsKeyed (.map es)) (hk' : Value.IsKeyed (.map es'))
    (hsame : AgreeButOutput es es')
    (h : load e d path (if es.isEmpty then .null else .map es) = .ok c)
    (h' : load e d path (if es'.isEmpty then .null else .map es') = .ok c') :
    c' = { c with output := c'.output } := by
  obtain ⟨environment, file, m, he, hf, hkeyed, hm, hc⟩ := exists_layers hk h
  obtain ⟨environment', file', m', he', hf', hkeyed', hm', hc'⟩ := exists_layers hk' h'
  cases he.symm.trans he'
  cases hf.symm.trans hf'
  have hlaid := hsame.laid hkeyed hkeyed'
  -- The mode is not among the settings for the output, so the profile is the same.
  rw [hlaid _ (by decide)] at hm
  cases hm.symm.trans hm'
  exact (hlaid.laid (isKeyed_over_profile hkeyed m) (isKeyed_over_profile hkeyed' m)).ofSettings
    hc hc'

/-- A setting that is no mapping on top is that of the settings laid over others. -/
theorem exists_section_of_top {lower : List (List (Value × Value))}
    (hk : ∀ layer ∈ es :: lower, Value.IsKeyed (.map layer)) {part name : Text}
    {settings : List (Value × Value)} {v : Value}
    (hpart : Value.lookup es part = some (.map settings))
    (hname : Value.lookup settings name = some v) (hv : v.entries? = none) :
    ∃ settings', Value.lookup (Value.laid (es :: lower)) part = some (.map settings') ∧
      Value.lookup settings' name = some v := by
  obtain ⟨htop, -⟩ := List.forall_mem_cons.mp hk
  have hkeyed : Value.IsKeyed (.map settings) := by
    obtain ⟨x, hx, hset⟩ := Option.map_eq_some_iff.mp hpart
    rw [← hset]
    exact (Value.isKeyed_map_iff.mp htop).2 x (List.mem_of_find?_eq_some hx)
  rw [Value.lookup_laid hk, Value.values_cons, hpart, Option.toList_some, List.singleton_append,
    Value.stacked]
  cases hlower : (Value.stacked (Value.values lower part)).bind Value.entries? with
  | none =>
    -- Below there is no mapping to merge with, so the settings stand as they are.
    exact ⟨settings, by rw [Value.laidOver_plain _ hlower], hname⟩
  | some below =>
    -- The settings are merged into those below, but nothing is merged into the value.
    refine ⟨Value.mergeTo (Value.mergeDepth - 1) below settings,
      by rw [Value.laidOver_map _ hlower rfl], ?_⟩
    refine (Value.lookup_mergeTo (Value.isKeyed_map_iff.mp hkeyed).1 (Value.mergeDepth - 2) below
      name).trans ?_
    rw [hname]
    exact congrArg some (Value.laidOver_of_plain _ _ hv)

/-- A format on the command line is that of the configuration. -/
theorem format_eq (hk : Value.IsKeyed (.map es)) {settings : List (Value × Value)} {f : Text}
    (houtput : Value.lookup es "output" = some (.map settings))
    (hf : Value.lookup settings "format" = some (.text f))
    (h : load e d path (if es.isEmpty then .null else .map es) = .ok c) :
    c.output.format = .text f := by
  obtain ⟨environment, file, m, -, -, hkeyed, -, hc⟩ := exists_layers hk h
  -- The format stays on top when the layers are laid over one another, and over the profile.
  obtain ⟨merged, hmerged, hf⟩ := exists_section_of_top hkeyed houtput hf rfl
  obtain ⟨whole, hwhole, hf⟩ := exists_section_of_top (isKeyed_over_profile hkeyed m) hmerged hf
    rfl
  obtain ⟨_, _, _, _, output, _, -, -, -, -, hsection, -, rfl⟩ := of_ofSettings hc
  cases (sectionOf_of_entries hwhole rfl).symm.trans hsection
  change setting _ "format" _ = _
  rw [setting, hf]
  rfl

end Config

end SurfaceAudit
