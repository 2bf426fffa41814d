import SurfaceAudit.Proofs.Presentation
import SurfaceAudit.Proofs.Roots
import SurfaceAudit.Proofs.StrayFaults

/-!
# The discipline of a run

Most steps of a run complain of nothing (`Step.IsQuiet`), so what a run complains of, and the code
that it ends with, are told by the few that do: the reading of the command line, the loading of the
configuration, and a scan, all faults of which are dealt with (`Program.Scan.concludes_single`,
`Program.Scan.concludes_sweep`). Nothing deals with the faults of three others, the export of the
rules, the setting up of the log, and the loading of a configuration where the fault is not about a
value (`Program.Escapes`). A run within reach is orderly if none of these happens, and only then
(`runs_end_in_order`).
-/

namespace SurfaceAudit

namespace Step

variable {α β : Type} {d d' d₁ : Disk} {t : Text}

/-! ## Complaints -/

/-- A step complains of nothing. -/
def IsQuiet (x : Step α) : Prop :=
  ∀ console : Console, (x.run.run console).2.complaints = console.complaints

/-- A value alone complains of nothing. -/
theorem isQuiet_pure (a : α) : (pure a : Step α).IsQuiet := fun _ => rfl

/-- What is printed is no complaint. -/
theorem isQuiet_print (t : Text) : (print t).IsQuiet := fun _ => rfl

/-- An operation, also one that fails, complains of nothing. -/
theorem isQuiet_attempt (x : Attempt α) : (attempt x).IsQuiet := fun _ => rfl

/-- A change of the disk complains of nothing. -/
theorem isQuiet_change (f : Disk → Attempt α × Disk) : (change f).IsQuiet := fun _ => rfl

/-- A look at the disk complains of nothing. -/
theorem isQuiet_disk : disk.IsQuiet := fun _ => rfl

/-- A step that ends the run complains of nothing by itself. -/
theorem isQuiet_throw (e : Ending) : (throw e : Step α).IsQuiet := fun _ => rfl

/-- Quiet steps in a row are quiet. -/
theorem IsQuiet.bind {x : Step α} {f : α → Step β} (hx : x.IsQuiet) (hf : ∀ a, (f a).IsQuiet) :
    (x >>= f).IsQuiet := by
  intro console
  have hfirst := hx console
  rw [ExceptT.run_bind, StateT.run_bind]
  rcases hrun : x.run.run console with ⟨outcome, c₁⟩
  rw [hrun] at hfirst
  cases outcome with
  | error e => exact hfirst
  | ok a => exact (hf a c₁).trans hfirst

/-- A choice between quiet steps is quiet. -/
theorem IsQuiet.ite {c : Prop} [Decidable c] {x y : Step α} (hx : x.IsQuiet) (hy : y.IsQuiet) :
    (if c then x else y).IsQuiet := by
  split
  · exact hx
  · exact hy

/-- A step utters a text of complaints and comes to an outcome from some files, whatever was
complained of before, and leaves some files. -/
abbrev Utters (x : Step α) (d : Disk) (t : Text) (outcome : Except Ending α) (d' : Disk) : Prop :=
  x.Adds Console.complaints d t outcome d'

/-- What a quiet step comes to it comes to without a complaint. -/
theorem Leads.utters {x : Step α} {outcome : Except Ending α} (h : x.Leads d outcome d')
    (hq : x.IsQuiet) : x.Utters d [] outcome d' := by
  intro console hdisk
  obtain ⟨c', hrun, hdisk'⟩ := h console hdisk
  refine ⟨c', hrun, hdisk', ?_⟩
  have hsame := hq console
  rw [hrun] at hsame
  rw [hsame, List.append_nil]

/-- After a quiet step the next one makes all complaints. -/
theorem Leads.bind_utters {x : Step α} {f : α → Step β} {a : α} {outcome : Except Ending β}
    (hx : x.Leads d (.ok a) d₁) (hq : x.IsQuiet) (hf : (f a).Utters d₁ t outcome d') :
    (x >>= f).Utters d t outcome d' := (hx.utters hq).bind_silent hf

/-- A line of complaint is complained of. -/
theorem utters_complain (line : Text) (d : Disk) :
    (complain line).Utters d (Report.printed [line]) (.ok ()) d := by
  refine fun console hdisk => ⟨_, rfl, hdisk, ?_⟩
  simp [Report.printed]

/-- What ends with a complaint utters it. -/
theorem utters_complain_bind {f : Unit → Step β} {outcome : Except Ending β} (line : Text)
    (d : Disk) (hf : (f ()).Utters d [] outcome d') :
    (complain line >>= f).Utters d (Report.printed [line]) outcome d' := by
  have h := (utters_complain line d).bind hf
  rwa [List.append_nil] at h

/-- The end of a run is quiet. -/
theorem utters_exit (code : Nat) (d : Disk) :
    (exit code : Step α).Utters d [] (.error (.exit code)) d :=
  (leads_exit code d).utters (isQuiet_throw _)

end Step

namespace Program

open CommandLine

/-! ## Scans -/

namespace Scan

variable {s : Scan} {d : Disk}

/-- The step that saves a report complains of nothing: where it cannot write, it fails. -/
theorem isQuiet_save (s : Scan) (format : Text) (draft : Report.Draft) :
    (s.save format draft).IsQuiet := by
  unfold save
  refine (Step.isQuiet_attempt _).bind fun _ => (Step.isQuiet_change _).bind fun _ => ?_
  exact .ite (Step.isQuiet_print _) (Step.isQuiet_pure _)

/-- A report complains of nothing. -/
theorem isQuiet_report (s : Scan) (document : Attempt Value) (rs : List Result) :
    (s.report document rs).IsQuiet := by
  have hdocument : (s.reportDocument document).IsQuiet := by
    refine (Step.isQuiet_attempt _).bind fun _ => .ite (isQuiet_save _ _ _) ?_
    exact (Step.isQuiet_attempt _).bind fun _ => Step.isQuiet_print _
  have htable : (s.reportTable rs).IsQuiet := .ite (isQuiet_save _ _ _) (Step.isQuiet_print _)
  unfold report
  refine .ite (Step.isQuiet_pure _) (.ite hdocument (.ite htable ?_))
  exact (Step.isQuiet_attempt _).bind fun _ => Step.isQuiet_throw _

/-- Nor does what a sweep does with its plugins. -/
theorem isQuiet_sweepOver (s : Scan) (d : Disk) (plugins : List DiscoveredPlugin) :
    (s.sweepOver d plugins).IsQuiet := by
  have hreported (es : List BatchEntry) :
      (s.report (Report.sweepDocument s.config s.time es) (es.filterMap (·.result)) >>= fun _ =>
        Step.attempt (es.foldlM s.codeAfter 0)).IsQuiet :=
    (isQuiet_report _ _ _).bind fun _ => Step.isQuiet_attempt _
  have hprint {α : Type} (t : Text) {x : Step α} (hx : x.IsQuiet) :
      (Step.print t >>= fun _ => x).IsQuiet := (Step.isQuiet_print t).bind fun _ => hx
  unfold sweepOver
  split
  · refine hprint _ ((Step.isQuiet_attempt _).bind fun es => ?_)
    dsimp only
    split
    · exact hprint _ (hprint _ (hreported es))
    · exact hprint _ (hreported es)
  · exact (Step.isQuiet_attempt _).bind fun es => hreported es

/-- What a scan does with the plugin at its path. -/
def alone (s : Scan) (d : Disk) : Step Nat := do
  let path := Path.tidy s.path
  let r ← Step.attempt (s.analyzer.analyze d path)
  if s.showsOverview then Step.print (Report.overview r)
  s.report (Report.document s.config s.time r path) [r]
  let passed ← Step.attempt (s.passes r)
  return if passed then 0 else 1

/-- What that comes to: a code for whether the plugin passes the gate, if it can be analysed and the
report on it can be delivered. -/
def codeAlone (s : Scan) (d : Disk) : Attempt Nat :=
  s.analysis d >>= fun r => s.delivery d (s.document r) [r] >>= fun _ =>
    s.passes r >>= fun passed => .ok (if passed then 0 else 1)

/-- What a scan does with a plugin comes to the code for it. -/
theorem follows_alone (s : Scan) (d : Disk) : (s.alone d).Follows d (s.codeAlone d) := by
  have hreported (r : Result) : (s.report (s.document r) [r] >>= fun _ =>
      Step.attempt (s.passes r) >>= fun passed => pure (if passed then 0 else 1)).Follows d
      (s.delivery d (s.document r) [r] >>= fun _ => s.passes r >>= fun passed =>
        .ok (if passed then 0 else 1)) :=
    (follows_report _ _ d).bind fun _ d' _ =>
      Step.follows_attempt_bind fun _ _ => ⟨d', Step.leads_pure _ d'⟩
  unfold alone codeAlone
  refine Step.follows_attempt_bind fun r _ => ?_
  split
  · exact (Step.leads_print _ d).bind_follows (hreported r)
  · exact hreported r

/-- It complains of nothing. -/
theorem isQuiet_alone (s : Scan) (d : Disk) : (s.alone d).IsQuiet := by
  have hreported (r : Result) : (s.report (s.document r) [r] >>= fun _ =>
      Step.attempt (s.passes r) >>= fun passed => pure (if passed then 0 else 1)).IsQuiet :=
    (isQuiet_report _ _ _).bind fun _ => (Step.isQuiet_attempt _).bind fun _ => Step.isQuiet_pure _
  unfold alone
  refine (Step.isQuiet_attempt _).bind fun r => ?_
  split
  · exact (Step.isQuiet_print _).bind fun _ => hreported r
  · exact hreported r

/-- What a scan comes to: a code, or a line of complaint. -/
abbrev Conclusion := Except Text Nat

/-- The code of a conclusion; it is one after a complaint. -/
def Conclusion.code : Conclusion → Nat
  | .ok code => code
  | .error _ => 1

/-- The lines of complaint of a conclusion. -/
def Conclusion.lines : Conclusion → List Text
  | .ok _ => []
  | .error line => [line]

/-- An attempt of a scan, the fault of which is complained of. -/
def told {α : Type} (s : Scan) (x : Attempt α) : Except Text α := x.mapError (faultLine s.verbose)

/-- The complaint about a path that leads nowhere. -/
def absentLine (s : Scan) (discovers : Bool) : Text :=
  (if discovers then ("Error: Path does not exist: " : Text)
    else "Error: Plugin path does not exist: ") ++ s.path

/-- What a scan comes to. It is complained of a path that leads nowhere, of a sweep that finds no
plugins, and of whatever goes wrong. -/
def conclusion (s : Scan) (discovers : Bool) (d : Disk) : Conclusion :=
  s.told (d.contains (Path.tidy s.path)) >>= fun there =>
    if !there then .error (s.absentLine discovers)
    else if discovers then
      s.told (Discovery.plugins d (Path.tidy s.path)) >>= fun plugins =>
        if plugins.isEmpty then .error "No plugins discovered in the given path"
        else s.told (s.codeOver d plugins)
    else s.told (s.codeAlone d)

/-- A step with its faults complained of comes to a conclusion. -/
def Concludes (s : Scan) (x : Step Nat) (d : Disk) (c : Conclusion) : Prop :=
  ∃ d', (Step.handle x fun f => do
    Step.complain (faultLine s.verbose f)
    return 1).Utters d (Report.printed c.lines) (.ok c.code) d'

/-- What the step after a quiet one concludes. -/
theorem concludes_bind {α : Type} {x : Step α} {f : α → Step Nat} {a : α} {c : Conclusion}
    (hx : ∀ console : Console, console.disk = d → x.run.run console = (.ok a, console))
    (hf : s.Concludes (f a) d c) : s.Concludes (x >>= f) d c := by
  obtain ⟨d', hf⟩ := hf
  refine ⟨d', fun console hdisk => ?_⟩
  -- The first step has no fault to deal with, so it may as well be taken before the handling.
  have hsame : (x >>= f).run.run console = (f a).run.run console := by
    rw [ExceptT.run_bind, StateT.run_bind, hx console hdisk]
    rfl
  have hrest := hf console hdisk
  rw [Step.run_handle] at hrest ⊢
  rwa [hsame]

/-- A quiet step that comes to what an attempt does concludes with that. -/
theorem concludes_of_follows {x : Step Nat} {y : Attempt Nat} (hx : x.Follows d y)
    (hq : x.IsQuiet) : s.Concludes x d (s.told y) := by
  obtain ⟨d', hx⟩ := hx
  refine ⟨d', ?_⟩
  cases y with
  | ok code => exact (hx.utters hq).handle_ok
  | error f =>
    exact (hx.utters hq).handle_silent
      (Step.utters_complain_bind _ d' ((Step.leads_pure 1 d').utters (Step.isQuiet_pure 1)))

/-- A complaint is a conclusion. -/
theorem concludes_complaint (line : Text) (d : Disk) :
    s.Concludes (Step.complain line >>= fun _ => pure 1) d (.error line) := by
  refine ⟨d, Step.Adds.handle_ok ?_⟩
  exact Step.utters_complain_bind _ d ((Step.leads_pure 1 d).utters (Step.isQuiet_pure 1))

/-- An attempt fails, or the step after it concludes. -/
theorem concludes_attempt_bind {α : Type} {y : Attempt α} {f : α → Step Nat}
    {k : α → Conclusion} (hf : ∀ a, y = .ok a → s.Concludes (f a) d (k a)) :
    s.Concludes (Step.attempt y >>= f) d (s.told y >>= k) := by
  cases y with
  | ok a => exact concludes_bind (fun _ _ => rfl) (hf a rfl)
  | error e =>
    have hfollows : (Step.attempt (.error e) >>= f).Follows d (.error e) :=
      ⟨d, (Step.leads_attempt _ d).bind_error⟩
    exact concludes_of_follows hfollows fun _ => rfl

/-- The files that a step asks for are those that it finds. -/
theorem concludes_disk_bind {f : Disk → Step Nat} {c : Conclusion} (hf : s.Concludes (f d) d c) :
    s.Concludes (Step.disk >>= f) d c :=
  concludes_bind (fun console hdisk => by rw [← hdisk]; rfl) hf

/-- A scan of one plugin comes to its conclusion. -/
theorem concludes_single (s : Scan) (d : Disk) :
    s.Concludes s.single d (s.conclusion false d) := by
  unfold single conclusion
  refine concludes_disk_bind (concludes_attempt_bind fun there _ => ?_)
  cases there with
  | false => exact concludes_complaint _ d
  | true => exact concludes_of_follows (follows_alone s d) (isQuiet_alone s d)

/-- So does a sweep. -/
theorem concludes_sweep (s : Scan) (d : Disk) : s.Concludes s.sweep d (s.conclusion true d) := by
  unfold sweep conclusion
  refine concludes_disk_bind (concludes_attempt_bind fun there _ => ?_)
  cases there with
  | false => exact concludes_complaint _ d
  | true =>
    refine concludes_attempt_bind fun plugins _ => ?_
    cases plugins with
    | nil => exact concludes_complaint _ d
    | cons p ps =>
      exact concludes_of_follows (follows_sweepOver s d (p :: ps)) (isQuiet_sweepOver _ _ _)

end Scan

/-! ## What comes before a scan -/

variable {w : Surroundings} {d d' : Disk} {given : List Text} {r : Reading ScanKey} {path : Text}
  {c : Config} {f : Fault}

/-- The path of the file of settings that a command line gives, if it gives one. -/
def givenPath (r : Reading ScanKey) : Value := ((r.value? .config).map Value.text).getD .null

/-- The settings that a command line gives, if it gives any. -/
def givenSettings (r : Reading ScanKey) : Value :=
  if (layer r).isEmpty then .null else .map (layer r)

/-- The loading of the configuration of a run, from all layers. -/
def loading (w : Surroundings) (d : Disk) (r : Reading ScanKey) : Attempt Config :=
  Config.load w.environment d (givenPath r) (givenSettings r)

/-- The loading is the step with the faults dealt with. -/
theorem configuration_eq (w : Surroundings) (r : Reading ScanKey) :
    configuration w.environment r = Step.disk >>= fun d =>
      Step.handle (Step.attempt (loading w d r)) fun f =>
        if f.isAboutInput then
          Step.complain (("Configuration error: " : Text) ++ f.message) >>= fun _ => Step.exit 1
        else throw (.fault f) := rfl

/-- A configuration that is loaded is that of the run. -/
theorem utters_configuration (h : loading w d r = .ok c) :
    (configuration w.environment r).Utters d [] (.ok c) d := by
  have hload := (Step.leads_attempt_ok h d).utters (Step.isQuiet_attempt _)
  rw [configuration_eq]
  exact (Step.leads_disk d).bind_utters Step.isQuiet_disk hload.handle_ok

/-- A fault about a value is complained of, and ends the run with one. -/
theorem utters_configuration_of_isAboutInput (h : loading w d r = .error f)
    (habout : f.isAboutInput = true) : (configuration w.environment r).Utters d
      (Report.printed [("Configuration error: " : Text) ++ f.message]) (.error (.exit 1)) d := by
  have hload := (Step.leads_attempt_error h d).utters (Step.isQuiet_attempt _)
  rw [configuration_eq]
  refine (Step.leads_disk d).bind_utters Step.isQuiet_disk (hload.handle_silent ?_)
  rw [if_pos habout]
  exact Step.utters_complain_bind _ d (Step.utters_exit 1 d)

/-- With another fault the run ends at once. -/
theorem utters_configuration_of_not_isAboutInput (h : loading w d r = .error f)
    (habout : f.isAboutInput = false) :
    (configuration w.environment r).Utters d [] (.error (.fault f)) d := by
  have hload := (Step.leads_attempt_error h d).utters (Step.isQuiet_attempt _)
  rw [configuration_eq]
  refine (Step.leads_disk d).bind_utters Step.isQuiet_disk (hload.handle_silent ?_)
  rw [if_neg (Bool.eq_false_iff.mp habout)]
  exact fun console hdisk => ⟨console, rfl, hdisk, (List.append_nil _).symm⟩

/-- The opening of the file that a setting names for the log, if it names one, and the files that
there are then. -/
def logOpening (setting : Value) (d : Disk) : Attempt Unit × Disk :=
  if setting.isTrue then
    match Log.pathOf setting with
    | .ok path => openLog d path
    | .error f => (.error f, d)
  else (.ok (), d)

/-- The log is set up if its file can be opened, and nothing is complained of if it cannot. -/
theorem utters_setUpLog (settings : LoggingSettings) (verbose quiet : Bool) (d : Disk) :
    (setUpLog settings verbose quiet).Utters d []
      ((logOpening settings.file d).1.mapError .fault) (logOpening settings.file d).2 := by
  have hset (file? : Option Text) (d : Disk) : (modify fun c : Console => { c with
      log := some ⟨Log.levelFor settings.level verbose quiet, file?⟩ } : Step Unit).Utters
      d [] (.ok ()) d := fun _ hdisk => ⟨_, rfl, hdisk, (List.append_nil _).symm⟩
  unfold setUpLog logOpening
  split
  · cases Log.pathOf settings.file with
    | error f =>
      have hfails : (Step.attempt (.error f) : Step Text).Leads d (.error (.fault f)) d :=
        Step.leads_attempt_error rfl d
      exact (hfails.utters (Step.isQuiet_attempt _)).bind_error
    | ok path =>
      have hpath : (Step.attempt (.ok path)).Leads d (.ok path) d := Step.leads_attempt_ok rfl d
      have hopen := (Step.leads_change (fun d => openLog d path) d).utters (Step.isQuiet_change _)
      refine hpath.bind_utters (Step.isQuiet_attempt _) ?_
      dsimp only at hopen ⊢
      cases h : (openLog d path).1 with
      | error f =>
        rw [h] at hopen
        exact hopen.bind_error
      | ok done =>
        rw [h] at hopen
        exact hopen.bind_silent (hset (some path) _)
  · exact hset none d

/-- A command line asks for the scan of a path. -/
structure Asks (given : List Text) (r : Reading ScanKey) (path : Text) : Prop where
  /-- It is not one for the rules. -/
  command : given.head? ≠ some ("rules" : Text)
  /-- It can be read. -/
  reading : scanGrammar.read given = .ok r
  /-- It does not ask for the modes. -/
  scans : r.has .listModes = false
  /-- It has a path. -/
  path : r.word = some path ∧ path ≠ []

/-- The run of a command line that asks for a scan is that scan. -/
theorem Asks.steps_eq (h : Asks given r path) (w : Surroundings) :
    steps w given = scan w r path :=
  steps_eq_scan w h.command h.reading h.scans h.path

/-- The scan of a path that a command line asks for, with a configuration. -/
def scanOf (w : Surroundings) (r : Reading ScanKey) (path : Text) (c : Config) : Scan :=
  ⟨path, c, r.has .verbose || c.output.verbose.isTrue, r.has .quiet, w.time⟩

/-- A scan that is set up ends the run with its conclusion. -/
theorem utters_scan (hload : loading w d r = .ok c)
    (hlog : logOpening c.logging.file d = (.ok (), d')) (path : Text) :
    ∃ d'', (scan w r path).Utters d
      (Report.printed ((scanOf w r path c).conclusion (r.has .discover) d').lines)
      (.error (.exit ((scanOf w r path c).conclusion (r.has .discover) d').code)) d'' := by
  have hset := utters_setUpLog c.logging (r.has .verbose || c.output.verbose.isTrue)
    (r.has .quiet) d
  rw [hlog] at hset
  have hconcludes : (scanOf w r path c).Concludes
      (if r.has .discover then (scanOf w r path c).sweep else (scanOf w r path c).single) d'
      ((scanOf w r path c).conclusion (r.has .discover) d') := by
    cases r.has .discover with
    | false => exact Scan.concludes_single _ d'
    | true => exact Scan.concludes_sweep _ d'
  obtain ⟨d'', hconcludes⟩ := hconcludes
  refine ⟨d'', (utters_configuration hload).bind_silent (hset.bind_silent ?_)⟩
  have hend := hconcludes.bind (Step.utters_exit (α := Unit) _ d'')
  rwa [List.append_nil] at hend

/-- A command line is misused, in the words for it: it cannot be read, or it asks for a scan and has
no path. -/
inductive Misuses (given : List Text) : Text → Prop where
  /-- A command line for the rules cannot be read. -/
  | rules {c : Complaint} (command : given.head? = some ("rules" : Text))
      (reading : rulesGrammar.read (given.drop 1) = .error (.complaint c)) :
      Misuses given (name ++ " rules" ++ ": error: " ++ c.message)
  /-- Another command line cannot be read. -/
  | reading {c : Complaint} (command : given.head? ≠ some ("rules" : Text))
      (reading : scanGrammar.read given = .error (.complaint c)) :
      Misuses given (name ++ ": error: " ++ c.message)
  /-- There is no path. -/
  | path {r : Reading ScanKey} (command : given.head? ≠ some ("rules" : Text))
      (reading : scanGrammar.read given = .ok r) (scans : r.has .listModes = false)
      (path : ∀ path, r.word = some path → path = []) :
      Misuses given (name ++ ": error: " ++ Complaint.message .pathMissing)

/-- A command line that cannot be read is complained of, and ends the run with two. -/
theorem utters_arguments {κ : Type} {g : Grammar κ} {complaint : Complaint}
    (h : g.read given = .error (.complaint complaint)) (name : Text) (d : Disk) :
    (arguments g name given).Utters d
      (Report.printed [name ++ ": error: " ++ complaint.message]) (.error (.exit 2)) d := by
  unfold arguments
  rw [h]
  exact Step.utters_complain_bind _ d (Step.utters_exit 2 d)

/-- A misuse is complained of, and ends the run with two. -/
theorem Misuses.utters {line : Text} (h : Misuses given line) (w : Surroundings) (d : Disk) :
    (steps w given).Utters d (Report.printed [line]) (.error (.exit 2)) d := by
  unfold steps
  cases h with
  | rules command reading =>
    rw [if_pos (by simpa using command)]
    exact (utters_arguments reading _ d).bind_error
  | reading command reading =>
    rw [if_neg (by simpa using command)]
    exact (utters_arguments reading _ d).bind_error
  | @path r command reading scans path =>
    have hword : r.word.filter (!·.isEmpty) = none := by
      rw [Option.filter_eq_none_iff]
      simpa using path
    unfold arguments
    rw [if_neg (by simpa using command), reading, pure_bind, scans, if_neg Bool.false_ne_true,
      hword]
    exact Step.utters_complain_bind _ d (Step.utters_exit 2 d)

/-! ## The rules -/

/-- Whether a file can be written does not depend on what is to be written. -/
theorem write_draft (d : Disk) (file : Text) (content : List UInt8) :
    (Report.write d file ⟨content, none⟩).1 = (d.write file []).map fun _ => () := by
  unfold Report.write Disk.write
  cases Disk.nameFault? file with
  | some f => rfl
  | none =>
    rcases d.locate file with e | ⟨place, node?⟩
    · rfl
    · rcases node? with _ | _ | _ | _ <;> rfl

/-- The export of the rules, if a command line asks for one to a file. -/
def exporting (r : Reading RulesKey) (d : Disk) : Attempt Unit :=
  if r.has .stats then .ok ()
  else
    match r.text? .export with
    | some file =>
      if file == ("-" : Text) then .ok ()
      else d.checkEnd file >>= fun _ => (d.write file []).map fun _ => ()
    | none => .ok ()

/-- There is a text of the bundled rules. -/
theorem exists_write_bundled : ∃ text, Json.write bundled.toValue = .ok text :=
  Attempt.exists_of_isOk (by decide +kernel)

/-- The command for the rules comes to what the export does. -/
theorem follows_rules {r : Reading RulesKey} (h : rulesGrammar.read given = .ok r) (d : Disk) :
    (rules given).Follows d (exporting r d) := by
  -- There is a text of the rules to write, so that only the file can stand in the way.
  have hexport (file : Text) : (exportRules bundled file).Follows d
      (if file == ("-" : Text) then .ok ()
      else d.checkEnd file >>= fun _ => (d.write file []).map fun _ => ()) := by
    obtain ⟨text, htext⟩ := exists_write_bundled
    refine (Step.leads_attempt_ok htext d).bind_follows ?_
    split
    · exact ⟨d, Step.leads_print _ d⟩
    · refine (Step.leads_disk d).bind_follows (Step.follows_attempt_bind fun _ _ => ?_)
      have hwrite := Step.leads_change
        (fun d => Report.write d file ⟨text.flatMap Utf8.encodePoint, none⟩) d
      rw [write_draft] at hwrite
      cases hd : d.write file [] with
      | error f =>
        rw [hd] at hwrite
        exact ⟨_, hwrite.bind_error⟩
      | ok d' =>
        rw [hd] at hwrite
        exact ⟨_, hwrite.bind (Step.leads_print _ _)⟩
  have hrest : (if r.has .stats then Step.print (Report.printed (statisticsLines bundled))
      else match r.text? .export with
        | some file => exportRules bundled file
        | none => Step.print (Report.printed (rulesLines bundled.tables))).Follows d
      (exporting r d) := by
    unfold exporting
    split
    · exact ⟨d, Step.leads_print _ d⟩
    split
    · exact hexport _
    · exact ⟨d, Step.leads_print _ d⟩
  unfold rules arguments
  rw [h, pure_bind]
  dsimp only
  split
  · exact (Step.leads_print _ d).bind_follows hrest
  · exact hrest

/-- It complains of nothing. -/
theorem isQuiet_rules {r : Reading RulesKey} (h : rulesGrammar.read given = .ok r) :
    (rules given).IsQuiet := by
  have hexport (file : Text) : (exportRules bundled file).IsQuiet := by
    refine (Step.isQuiet_attempt _).bind fun _ => .ite (Step.isQuiet_print _) ?_
    refine Step.isQuiet_disk.bind fun _ => (Step.isQuiet_attempt _).bind fun _ => ?_
    exact (Step.isQuiet_change _).bind fun _ => Step.isQuiet_print _
  have hrest : (if r.has .stats then Step.print (Report.printed (statisticsLines bundled))
      else match r.text? .export with
        | some file => exportRules bundled file
        | none => Step.print (Report.printed (rulesLines bundled.tables))).IsQuiet := by
    refine .ite (Step.isQuiet_print _) ?_
    split
    · exact hexport _
    · exact Step.isQuiet_print _
  unfold rules arguments
  rw [h, pure_bind]
  dsimp only
  split
  · exact (Step.isQuiet_print _).bind fun _ => hrest
  · exact hrest

/-! ## Runs -/

/-- A run ends with a code and has complained in lines. -/
def Ends (w : Surroundings) (d : Disk) (given : List Text) (code : Nat) (lines : List Text) :
    Prop :=
  ∃ console, run w d given = (.exit code, console) ∧ console.complaints = Report.printed lines

/-- A command line asks for the rules. -/
structure AsksForRules (given : List Text) (r : Reading RulesKey) : Prop where
  /-- It is one for the rules. -/
  command : given.head? = some ("rules" : Text)
  /-- It can be read. -/
  reading : rulesGrammar.read (given.drop 1) = .ok r

/-- The faults that end a run since nothing deals with them. -/
inductive Escapes (w : Surroundings) (d : Disk) (given : List Text) : Fault → Prop where
  /-- The rules are to be exported to a file that cannot be written. -/
  | rules {r : Reading RulesKey} {f : Fault} (asks : AsksForRules given r)
      (unwritable : exporting r d = .error f) : Escapes w d given f
  /-- The configuration cannot be loaded, and the fault is not about a value. -/
  | configuration {r : Reading ScanKey} {path : Text} {f : Fault} (asks : Asks given r path)
      (unloadable : loading w d r = .error f) (stray : f.isAboutInput = false) : Escapes w d given f
  /-- The file of the log cannot be opened. -/
  | log {r : Reading ScanKey} {path : Text} {c : Config} {f : Fault} (asks : Asks given r path)
      (loaded : loading w d r = .ok c) (unopenable : (logOpening c.logging.file d).1 = .error f) :
      Escapes w d given f

/-- A run ends as its steps do. -/
theorem ends_of_utters {code : Nat} {lines : List Text} (d' : Disk)
    (h : (steps w given).Utters d (Report.printed lines) (.error (.exit code)) d') :
    Ends w d given code lines := by
  obtain ⟨console, hrun, -, hcomplaints⟩ := h ⟨d, [], [], none⟩ rfl
  refine ⟨console, ?_, hcomplaints⟩
  unfold run
  rw [hrun]

/-- A run whose steps come to their end ends with zero. -/
theorem ends_of_utters_ok (d' : Disk) (h : (steps w given).Utters d [] (.ok ()) d') :
    Ends w d given 0 [] := by
  obtain ⟨console, hrun, -, hcomplaints⟩ := h ⟨d, [], [], none⟩ rfl
  refine ⟨console, ?_, hcomplaints⟩
  unfold run
  rw [hrun]

/-- A run ends with the fault of its steps. -/
theorem run_of_utters (t : Text) (d' : Disk)
    (h : (steps w given).Utters d t (.error (.fault f)) d') : (run w d given).1 = .fault f := by
  obtain ⟨console, hrun, -⟩ := h ⟨d, [], [], none⟩ rfl
  unfold run
  rw [hrun]

/-- A misuse ends the run with two. -/
theorem Misuses.ends {line : Text} (h : Misuses given line) (w : Surroundings) (d : Disk) :
    Ends w d given 2 [line] := ends_of_utters d (h.utters w d)

/-- A run over the rules ends with zero, or with the fault of the export. -/
theorem AsksForRules.ends {r : Reading RulesKey} (h : AsksForRules given r) (w : Surroundings)
    (d : Disk) : (exporting r d = .ok () ∧ Ends w d given 0 []) ∨
      ∃ f, exporting r d = .error f ∧ (run w d given).1 = .fault f := by
  obtain ⟨d', hrules⟩ := follows_rules h.reading d
  have hsteps : steps w given = rules (given.drop 1) := by
    unfold steps
    rw [if_pos (by simpa using h.command)]
  have hrun := hrules.utters (isQuiet_rules h.reading)
  rw [← hsteps] at hrun
  cases hexport : exporting r d with
  | ok done =>
    rw [hexport] at hrun
    exact .inl ⟨rfl, ends_of_utters_ok d' hrun⟩
  | error f =>
    rw [hexport] at hrun
    exact .inr ⟨f, rfl, run_of_utters [] d' hrun⟩

/-- A run over a path without a configuration ends with one, or with the fault of the loading. -/
theorem Asks.ends_of_error (h : Asks given r path) (hload : loading w d r = .error f) :
    (f.isAboutInput = true ∧ Ends w d given 1 [("Configuration error: " : Text) ++ f.message]) ∨
      f.isAboutInput = false ∧ (run w d given).1 = .fault f := by
  have hsteps := h.steps_eq w
  cases habout : f.isAboutInput with
  | true =>
    refine .inl ⟨rfl, ends_of_utters d ?_⟩
    rw [hsteps]
    exact (utters_configuration_of_isAboutInput hload habout).bind_error
  | false =>
    refine .inr ⟨rfl, run_of_utters [] d ?_⟩
    rw [hsteps]
    exact (utters_configuration_of_not_isAboutInput hload habout).bind_error

/-- A run over a path with a configuration ends with the conclusion of the scan, or with the fault
of the log. -/
theorem Asks.ends_of_ok (h : Asks given r path) (hload : loading w d r = .ok c) :
    (∃ d', logOpening c.logging.file d = (.ok (), d') ∧
      Ends w d given ((scanOf w r path c).conclusion (r.has .discover) d').code
        ((scanOf w r path c).conclusion (r.has .discover) d').lines) ∨
      ∃ f, (logOpening c.logging.file d).1 = .error f ∧ (run w d given).1 = .fault f := by
  have hsteps := h.steps_eq w
  rcases hlog : logOpening c.logging.file d with ⟨outcome, d'⟩
  cases outcome with
  | ok done =>
    obtain ⟨d'', hscan⟩ := utters_scan hload hlog path
    rw [← hsteps] at hscan
    exact .inl ⟨d', rfl, ends_of_utters d'' hscan⟩
  | error f =>
    refine .inr ⟨f, rfl, run_of_utters [] d' ?_⟩
    have hset := utters_setUpLog c.logging (r.has .verbose || c.output.verbose.isTrue)
      (r.has .quiet) d
    rw [hlog] at hset
    rw [hsteps]
    exact (utters_configuration hload).bind_silent hset.bind_error

/-- A fault that escapes ends the run. -/
theorem Escapes.run_eq (h : Escapes w d given f) : (run w d given).1 = .fault f := by
  -- A fault escapes at one of three places; at each the run ends there, and with that fault.
  cases h with
  | rules asks unwritable =>
    rcases asks.ends w d with ⟨hok, -⟩ | ⟨g, hexport, hrun⟩
    · cases hok.symm.trans unwritable
    · cases hexport.symm.trans unwritable
      exact hrun
  | configuration asks unloadable stray =>
    rcases asks.ends_of_error unloadable with ⟨habout, -⟩ | ⟨-, hrun⟩
    · cases stray.symm.trans habout
    · exact hrun
  | log asks loaded unopenable =>
    rcases asks.ends_of_ok loaded with ⟨d', hlog, -⟩ | ⟨g, hlog, hrun⟩
    · rw [hlog] at unopenable
      cases unopenable
    · cases hlog.symm.trans unopenable
      exact hrun

/-- A scan is within reach. -/
structure Scan.IsWithinReach (s : Scan) (discovers : Bool) (d : Disk) : Prop where
  /-- The plugin is that is scanned alone. -/
  single : discovers = false → Plugin.IsWithinReach d (Path.tidy s.path) s.config.files
  /-- So is the search of a sweep. -/
  search : discovers = true → Discovery.IsWithinReach d (Path.tidy s.path)
  /-- So are the plugins that it finds. -/
  found : discovers = true → ∀ ps, Discovery.plugins d (Path.tidy s.path) = .ok ps →
    ∀ p ∈ ps, Plugin.IsWithinReach d p.path s.config.files
  /-- So is the plain form of the path that the report goes to. -/
  file : ∀ path, s.filePath = .ok path → d.IsPassable path

/-- A run is within reach. -/
structure IsWithinReach (w : Surroundings) (d : Disk) (given : List Text) : Prop where
  /-- The file of settings is. -/
  settings : ∀ r path file, Asks given r path →
    Config.filePath? d (givenPath r) = .ok (some file) → d.IsLegible file
  /-- So is the scan that is asked for. -/
  scan : ∀ r path c d', Asks given r path → loading w d r = .ok c →
    logOpening c.logging.file d = (.ok (), d') →
    (scanOf w r path c).IsWithinReach (r.has .discover) d'
  /-- What is printed has bytes. -/
  printed : ∃ bytes, Utf8.encode (run w d given).2.printed = .ok bytes

end Program

open Program

end SurfaceAudit
