import SurfaceAudit.Proofs.Accounts
import SurfaceAudit.Proofs.Reach
import SurfaceAudit.Proofs.Sweeps

/-!
# How a sweep ends

What a step of a run comes to depends on the files that it finds, and not on what was printed before
(`Step.Leads`). So a run that gets as far as the entries of a sweep ends with the code of them
(`Program.Sweeps.exists_run`), which agrees with the accounts in the report, if what is printed has
bytes and the report is within reach (`sweep_accounts_agree`). The report comes first, though: if it
cannot be delivered, the code is one with nothing wrong in the accounts (`lost_report_fails`).
-/

namespace SurfaceAudit

namespace Step

variable {α β : Type} {d d' d₁ : Disk}

/-- A step comes to an outcome from some files, whatever was printed before, and leaves some files.
-/
def Leads (x : Step α) (d : Disk) (outcome : Except Ending α) (d' : Disk) : Prop :=
  ∀ console : Console, console.disk = d →
    ∃ console', x.run.run console = (outcome, console') ∧ console'.disk = d'

/-- A step that gives a value goes on to the next one. -/
theorem Leads.bind {x : Step α} {f : α → Step β} {a : α} {outcome : Except Ending β}
    (hx : x.Leads d (.ok a) d₁) (hf : (f a).Leads d₁ outcome d') :
    (x >>= f).Leads d outcome d' := by
  intro console hdisk
  obtain ⟨c₁, hrun, hdisk₁⟩ := hx console hdisk
  obtain ⟨c', hrun', hdisk'⟩ := hf c₁ hdisk₁
  refine ⟨c', ?_, hdisk'⟩
  rw [ExceptT.run_bind, StateT.run_bind, hrun]
  exact hrun'

/-- A step that ends the run keeps the next one from being taken. -/
theorem Leads.bind_error {x : Step α} {f : α → Step β} {e : Ending}
    (hx : x.Leads d (.error e) d') : (x >>= f).Leads d (.error e) d' := by
  intro console hdisk
  obtain ⟨c', hrun, hdisk'⟩ := hx console hdisk
  refine ⟨c', ?_, hdisk'⟩
  rw [ExceptT.run_bind, StateT.run_bind, hrun]
  rfl

/-- A step that does nothing gives its value and leaves the files alone. -/
theorem leads_pure (a : α) (d : Disk) : (pure a : Step α).Leads d (.ok a) d :=
  fun console hdisk => ⟨console, rfl, hdisk⟩

/-- Printing leaves the files alone. -/
theorem leads_print (t : Text) (d : Disk) : (print t).Leads d (.ok ()) d :=
  fun _ hdisk => ⟨_, rfl, hdisk⟩

/-- So does a complaint. -/
theorem leads_complain (t : Text) (d : Disk) : (complain t).Leads d (.ok ()) d :=
  fun _ hdisk => ⟨_, rfl, hdisk⟩

/-- The end of a run leaves the files as they are. -/
theorem leads_exit (code : Nat) (d : Disk) :
    (exit code : Step α).Leads d (.error (.exit code)) d :=
  fun console hdisk => ⟨console, rfl, hdisk⟩

/-- The files that a step asks for are those that it finds. -/
theorem leads_disk (d : Disk) : disk.Leads d (.ok d) d :=
  fun console hdisk => ⟨console, by rw [← hdisk]; rfl, hdisk⟩

/-- What an attempt comes to is the outcome of the step. -/
theorem leads_attempt (x : Attempt α) (d : Disk) :
    (attempt x).Leads d (x.mapError .fault) d :=
  fun console hdisk => ⟨console, rfl, hdisk⟩

/-- An attempt that gives a value gives it to the step. -/
theorem leads_attempt_ok {x : Attempt α} {a : α} (h : x = .ok a) (d : Disk) :
    (attempt x).Leads d (.ok a) d := by
  rw [h]
  exact leads_attempt _ d

/-- An attempt that fails ends the step. -/
theorem leads_attempt_error {x : Attempt α} {f : Fault} (h : x = .error f) (d : Disk) :
    (attempt x).Leads d (.error (.fault f)) d := by
  rw [h]
  exact leads_attempt _ d

/-- A change of the files leaves those that it makes. -/
theorem leads_change (f : Disk → Attempt α × Disk) (d : Disk) :
    (change f).Leads d ((f d).1.mapError .fault) (f d).2 := by
  rintro console rfl
  exact ⟨{ console with disk := (f console.disk).2 }, rfl, rfl⟩

/-- A step with its faults dealt with goes on from the fault of the step, if there is one. -/
theorem run_handle (x : Step α) (f : Fault → Step α) (console : Console) :
    (handle x f).run.run console =
      match x.run.run console with
      | (.error (.fault e), c') => (f e).run.run c'
      | other => other := by
  unfold handle
  rcases h : x.run.run console with ⟨outcome, c'⟩
  have hrun : StateT.run x console = (outcome, c') := h
  simp only [tryCatch, tryCatchThe, MonadExceptOf.tryCatch, ExceptT.tryCatch, ExceptT.run_mk,
    StateT.run_bind]
  rw [hrun]
  rcases outcome with e | a
  · cases e <;> rfl
  · rfl

/-- Nothing is dealt with in a step that gives a value. -/
theorem Leads.handle_ok {x : Step α} {f : Fault → Step α} {a : α} (hx : x.Leads d (.ok a) d') :
    (handle x f).Leads d (.ok a) d' := by
  intro console hdisk
  obtain ⟨c', hrun, hdisk'⟩ := hx console hdisk
  exact ⟨c', by rw [run_handle, hrun], hdisk'⟩

/-- From the fault of a step a run goes on as the fault is dealt with. -/
theorem Leads.handle_fault {x : Step α} {f : Fault → Step α} {e : Fault}
    {outcome : Except Ending α} (hx : x.Leads d (.error (.fault e)) d₁)
    (hf : (f e).Leads d₁ outcome d') : (handle x f).Leads d outcome d' := by
  intro console hdisk
  obtain ⟨c₁, hrun, hdisk₁⟩ := hx console hdisk
  rw [run_handle, hrun]
  exact hf c₁ hdisk₁

/-- A step comes to what an attempt comes to, whatever was printed before. -/
def Follows (x : Step α) (d : Disk) (outcome : Attempt α) : Prop :=
  ∃ d', x.Leads d (outcome.mapError .fault) d'

/-- A step after one that leaves the files alone. -/
theorem Leads.bind_follows {x : Step α} {f : α → Step β} {a : α} {outcome : Attempt β}
    (hx : x.Leads d (.ok a) d₁) (hf : (f a).Follows d₁ outcome) : (x >>= f).Follows d outcome := by
  obtain ⟨d', hf⟩ := hf
  exact ⟨d', hx.bind hf⟩

/-- Steps in a row come to what attempts in a row do. -/
theorem Follows.bind {x : Step α} {f : α → Step β} {y : Attempt α} {g : α → Attempt β}
    (hx : x.Follows d y) (hf : ∀ a d', y = .ok a → (f a).Follows d' (g a)) :
    (x >>= f).Follows d (y >>= g) := by
  obtain ⟨d₁, hx⟩ := hx
  cases y with
  | error e => exact ⟨d₁, hx.bind_error⟩
  | ok a => exact Leads.bind_follows hx (hf a d₁ rfl)

/-- A step after an attempt finds the files as they were. -/
theorem follows_attempt_bind {y : Attempt α} {f : α → Step β} {g : α → Attempt β}
    (hf : ∀ a, y = .ok a → (f a).Follows d (g a)) : (attempt y >>= f).Follows d (y >>= g) := by
  have hy := leads_attempt y d
  cases y with
  | error e => exact ⟨d, hy.bind_error⟩
  | ok a => exact Leads.bind_follows hy (hf a rfl)

end Step

namespace Program

open CommandLine

namespace Scan

variable {s : Scan} {d d' : Disk} {es : List BatchEntry}

/-- Whether the report on results can be delivered, and what is at fault if not. In the format of
texts there is no report but the overview; a document is made, and written to the file or printed,
and so is a table; and there is no other format. -/
def delivery (s : Scan) (d : Disk) (document : Attempt Value) (rs : List Result) : Attempt Unit :=
  if s.hasFormat "text" then .ok ()
  else if s.hasFormat "json" then document >>= fun v =>
    if s.hasFile then s.filePath >>= fun file =>
      (Report.writeTo d file (Report.documentDraft v)).1 >>= fun _ => .ok ()
    else Json.write v >>= fun _ => .ok ()
  else if s.hasFormat "csv" then
    if s.hasFile then s.filePath >>= fun file =>
      (Report.writeTo d file (Report.tableDraft rs)).1 >>= fun _ => .ok ()
    else .ok ()
  else s.config.output.format.shown >>= fun shown => .error (.reportFormat shown)

/-- The report is within reach. -/
structure ReportsWithinReach (s : Scan) (d : Disk) (document : Attempt Value) : Prop where
  /-- The document is not nested too deeply to be written. -/
  document : ∀ v, document = .ok v → v.height ≤ callLimit
  /-- The plain form of the path that the report goes to is within reach. -/
  file : ∀ path, s.filePath = .ok path → d.IsPassable path

/-- A document that is made can be delivered to a file if that can be written. -/
theorem delivery_of_file {file : Text} (htext : s.hasFormat "text" = false)
    (hjson : s.hasFormat "json" = true) (hfile : s.hasFile = true) (hpath : s.filePath = .ok file)
    (d : Disk) (v : Value) (rs : List Result) : s.delivery d (.ok v) rs =
      (Report.writeTo d file (Report.documentDraft v)).1 >>= fun _ => .ok () := by
  unfold delivery
  rw [htext, if_neg Bool.false_ne_true, hjson, if_pos rfl, hfile, hpath]
  rfl

/-- A draft is saved if it can be written to the file of the report. -/
theorem follows_save (format : Text) (draft : Report.Draft) (d : Disk) :
    (s.save format draft).Follows d
      (s.filePath >>= fun file => (Report.writeTo d file draft).1 >>= fun _ => .ok ()) := by
  unfold save
  refine Step.follows_attempt_bind fun file _ => ?_
  have hwrite : (Step.change fun d => Report.writeTo d file draft).Follows d
      (Report.writeTo d file draft).1 := ⟨_, Step.leads_change _ d⟩
  refine hwrite.bind fun _ d' _ => ?_
  split
  · exact ⟨d', Step.leads_print _ d'⟩
  · exact ⟨d', Step.leads_pure () d'⟩

/-- A report comes to what its delivery does. -/
theorem follows_report (document : Attempt Value) (rs : List Result) (d : Disk) :
    (s.report document rs).Follows d (s.delivery d document rs) := by
  unfold report delivery
  split
  · exact ⟨d, Step.leads_pure () d⟩
  split
  · unfold reportDocument
    refine Step.follows_attempt_bind fun v _ => ?_
    split
    · exact follows_save _ _ d
    · exact Step.follows_attempt_bind fun _ _ => ⟨d, Step.leads_print _ d⟩
  split
  · unfold reportTable
    split
    · exact follows_save _ _ d
    · exact ⟨d, Step.leads_print _ d⟩
  · exact Step.follows_attempt_bind fun shown _ => ⟨d, fun console hdisk => ⟨console, rfl, hdisk⟩⟩

/-- What a sweep does with the plugins that it has found. -/
def sweepOver (s : Scan) (d : Disk) (plugins : List DiscoveredPlugin) : Step Nat := do
  if s.showsOverview then Step.print (Report.printed (discoveryLines plugins))
  let es ← Step.attempt (s.analyzer.analyzeMany d (plugins.map (·.path)) none)
  let rs := es.filterMap (·.result)
  if s.showsOverview then
    if s.verbose then Step.print (rs.flatMap Report.overview)
    Step.print (Report.sweepOverview es)
  s.report (Report.sweepDocument s.config s.time es) rs
  Step.attempt (es.foldlM s.codeAfter 0)

/-- What that comes to: the code of the entries, if they are had and the report on them can be
delivered. -/
def codeOver (s : Scan) (d : Disk) (plugins : List DiscoveredPlugin) : Attempt Nat :=
  s.analyzer.analyzeMany d (plugins.map (·.path)) none >>= fun es =>
    s.delivery d (Report.sweepDocument s.config s.time es) (es.filterMap (·.result)) >>= fun _ =>
      es.foldlM s.codeAfter 0

/-- What a sweep does with its plugins comes to the code of their entries. -/
theorem follows_sweepOver (s : Scan) (d : Disk) (plugins : List DiscoveredPlugin) :
    (s.sweepOver d plugins).Follows d (s.codeOver d plugins) := by
  have hreported (es : List BatchEntry) :
      (s.report (Report.sweepDocument s.config s.time es) (es.filterMap (·.result)) >>= fun _ =>
        Step.attempt (es.foldlM s.codeAfter 0)).Follows d
      (s.delivery d (Report.sweepDocument s.config s.time es) (es.filterMap (·.result)) >>= fun _ =>
        es.foldlM s.codeAfter 0) :=
    (follows_report _ _ d).bind fun _ d' _ => ⟨d', Step.leads_attempt _ d'⟩
  unfold sweepOver codeOver
  -- What is printed on the way leaves the files alone.
  split
  · refine (Step.leads_print _ d).bind_follows (Step.follows_attempt_bind fun es _ => ?_)
    dsimp only
    split
    · exact (Step.leads_print _ d).bind_follows
        ((Step.leads_print _ d).bind_follows (hreported es))
    · exact (Step.leads_print _ d).bind_follows (hreported es)
  · exact Step.follows_attempt_bind fun es _ => hreported es

/-- A sweep that gets as far as the entries comes to the code of them, if the report on them can be
delivered. -/
theorem follows_sweep {ps : List DiscoveredPlugin}
    (hthere : d.contains (Path.tidy s.path) = .ok true)
    (hps : Discovery.plugins d (Path.tidy s.path) = .ok ps) (hsome : ps ≠ [])
    (hes : s.analyzer.analyzeMany d (ps.map (·.path)) none = .ok es) :
    s.sweep.Follows d
      (s.delivery d (Report.sweepDocument s.config s.time es) (es.filterMap (·.result)) >>=
        fun _ => es.foldlM s.codeAfter 0) := by
  have hover := follows_sweepOver s d ps
  unfold codeOver at hover
  rw [hes] at hover
  unfold sweep
  refine (Step.leads_disk d).bind_follows ?_
  refine (Step.leads_attempt_ok hthere d).bind_follows ?_
  refine (Step.leads_attempt_ok hps d).bind_follows ?_
  rw [if_neg (by simpa using hsome)]
  exact hover

end Scan

/-- A run that gets as far as the entries of a sweep: the command line asks for one, the
configuration is loaded, the log is set up, which leaves some files, and plugins are found there and
analysed. -/
structure Sweeps (w : Surroundings) (d : Disk) (given : List Text) (r : Reading ScanKey)
    (s : Scan) (d' : Disk) (es : List BatchEntry) : Prop where
  /-- The command line is not one for the rules. -/
  command : given.head? ≠ some "rules"
  /-- It can be read. -/
  reading : scanGrammar.read given = .ok r
  /-- It does not ask for the modes. -/
  scans : r.has .listModes = false
  /-- It has a path. -/
  path : r.word = some s.path ∧ s.path ≠ []
  /-- It asks for a sweep. -/
  discovers : r.has .discover = true
  /-- The configuration is loaded from all layers. -/
  config : Config.load w.environment d (((r.value? .config).map Value.text).getD .null)
    (if (layer r).isEmpty then .null else .map (layer r)) = .ok s.config
  /-- What is told is set on the command line or in the configuration. -/
  verbose : s.verbose = (r.has .verbose || s.config.output.verbose.isTrue)
  /-- Less is told if the command line asks for that. -/
  quiet : s.quiet = r.has .quiet
  /-- The time is that of the run. -/
  time : s.time = w.time
  /-- The log is set up. -/
  log : (setUpLog s.config.logging s.verbose s.quiet).Leads d (.ok ()) d'
  /-- There is something at the path. -/
  there : d'.contains (Path.tidy s.path) = .ok true
  /-- Plugins are found there, and analysed. -/
  entries : ∃ ps, ps ≠ [] ∧ Discovery.plugins d' (Path.tidy s.path) = .ok ps ∧
    s.analyzer.analyzeMany d' (ps.map (·.path)) none = .ok es

/-- The code that a sweep ends with: that of the entries if the report on them can be delivered, and
one if anything is at fault. -/
def Scan.code (s : Scan) (d : Disk) (es : List BatchEntry) : Nat :=
  (s.delivery d (Report.sweepDocument s.config s.time es) (es.filterMap (·.result)) >>=
    fun _ => es.foldlM s.codeAfter 0).toOption.getD 1

/-- Without a file for the log its setting up leaves the files alone. -/
theorem leads_setUpLog {settings : LoggingSettings} (h : settings.file.isTrue = false)
    (verbose quiet : Bool) (d : Disk) : (setUpLog settings verbose quiet).Leads d (.ok ()) d := by
  unfold setUpLog
  rw [h]
  exact fun _ hdisk => ⟨_, rfl, hdisk⟩

variable {w : Surroundings} {given : List Text} {r : Reading ScanKey} {s : Scan} {d d' : Disk}
  {es : List BatchEntry}

/-- The configuration of a run is that which is loaded. -/
theorem Sweeps.leads_configuration (h : Sweeps w d given r s d' es) :
    (configuration w.environment r).Leads d (.ok s.config) d :=
  (Step.leads_disk d).bind (Step.leads_attempt_ok h.config d).handle_ok

/-- A scan of the path ends with the code of the sweep. -/
theorem Sweeps.leads_scan (h : Sweeps w d given r s d' es) :
    ∃ d'', (scan w r s.path).Leads d (.error (.exit (s.code d' es))) d'' := by
  obtain ⟨ps, hsome, hps, hes⟩ := h.entries
  obtain ⟨d₁, hsweep⟩ := Scan.follows_sweep h.there hps hsome hes
  have hs : (⟨s.path, s.config, r.has .verbose || s.config.output.verbose.isTrue, r.has .quiet,
      w.time⟩ : Scan) = s := by
    rw [← h.verbose, ← h.quiet, ← h.time]
  have hlog := h.log
  rw [h.verbose, h.quiet] at hlog
  refine ⟨d₁, h.leads_configuration.bind (hlog.bind ?_)⟩
  dsimp only
  rw [hs, h.discovers, if_pos rfl]
  unfold Scan.code
  generalize s.delivery d' _ _ >>= _ = outcome at hsweep ⊢
  -- A fault of the delivery does not end the run: it is complained of, and the code is one.
  cases outcome with
  | error f =>
    refine Step.Leads.bind (a := 1) ?_ (Step.leads_exit 1 d₁)
    refine hsweep.handle_fault ?_
    exact (Step.leads_complain _ d₁).bind (Step.leads_pure 1 d₁)
  | ok code => exact hsweep.handle_ok.bind (Step.leads_exit _ d₁)

/-- The run of a command line that asks for a scan of a path is that scan. -/
theorem steps_eq_scan {path : Text} (w : Surroundings)
    (command : given.head? ≠ some ("rules" : Text)) (reading : scanGrammar.read given = .ok r)
    (scans : r.has .listModes = false) (hpath : r.word = some path ∧ path ≠ []) :
    steps w given = scan w r path := by
  have hcommand : (given.head? == some ("rules" : Text)) = false := by simpa using command
  unfold steps arguments
  rw [hcommand, if_neg Bool.false_ne_true, reading, pure_bind, scans, if_neg Bool.false_ne_true,
    hpath.1, Option.filter_some, if_pos (by simpa using hpath.2)]

/-- A run that gets as far as the entries of a sweep ends with their code. -/
theorem Sweeps.exists_run (h : Sweeps w d given r s d' es) :
    ∃ console, run w d given = (.exit (s.code d' es), console) := by
  obtain ⟨d'', hscan⟩ := h.leads_scan
  rw [← steps_eq_scan w h.command h.reading h.scans h.path] at hscan
  obtain ⟨console, hrun, -⟩ := hscan ⟨d, [], [], none⟩ rfl
  refine ⟨console, ?_⟩
  unfold run
  rw [hrun]

/-- The code of a sweep is zero or one, and it is zero exactly if the report can be delivered and
all entries pass. -/
theorem Scan.code_eq_zero_iff_delivery (hgate : ∀ r, ∃ g, Report.gate s.config r = .ok g)
    (d : Disk) (es : List BatchEntry) : s.code d es ≤ 1 ∧ (s.code d es = 0 ↔
      s.delivery d (Report.sweepDocument s.config s.time es) (es.filterMap (·.result)) = .ok () ∧
        ∀ e ∈ es, Report.Passes s.config e) := by
  obtain ⟨code, hcode⟩ := Scan.exists_foldlM_codeAfter hgate es
  obtain ⟨hzero, hle⟩ := Scan.code_eq_zero_iff hcode
  unfold Scan.code
  rw [hcode, ← hzero]
  cases s.delivery d (Report.sweepDocument s.config s.time es) (es.filterMap (·.result)) with
  | error f => exact ⟨Nat.le_refl 1, iff_of_false Nat.one_ne_zero (by simp)⟩
  | ok done => exact ⟨hle, (and_iff_right rfl).symm⟩

end Program

open Program CommandLine

/-- The report on a sweep gives account of the entries, whatever they are: of a configuration that
is loaded, and whose gate has a list of texts for its surfaces, there is a report, with the reports
on the entries in order, and its counts agree with the entries and with each other. A run that gets
as far as the entries of a sweep, whose report is within reach, and which prints nothing but what
has bytes, ends with the code zero or one, and with zero exactly if the report can be delivered and
has neither an entry without a result nor a failure; and in the format of texts it can be delivered.
-/
theorem sweep_accounts_agree :
    (∀ (e : Config.Environment) (d : Disk) (path upper : Value) (c : Config) (names : List Text),
      Config.load e d path upper = .ok c → c.gate.targets = .list (names.map .text) →
      ∀ (time : Text) (es : List BatchEntry), ∃ report,
        Report.sweepDocument c time es = .ok report ∧ Report.GivesAccount c time es report) ∧
    ∀ (w : Surroundings) (d : Disk) (given : List Text) (r : Reading ScanKey)
      (s : Program.Scan) (d' : Disk) (es : List BatchEntry) (names : List Text),
      Sweeps w d given r s d' es → s.config.gate.targets = .list (names.map .text) →
      (∃ bytes, Utf8.encode (run w d given).2.printed = .ok bytes) →
      s.ReportsWithinReach d' (Report.sweepDocument s.config s.time es) →
      ∃ report code console, Report.sweepDocument s.config s.time es = .ok report ∧
        run w d given = (.exit code, console) ∧ code ≤ 1 ∧
        (code = 0 ↔ s.delivery d' (.ok report) (es.filterMap (·.result)) = .ok () ∧
          report.at? ["aggregate", "error_count"] = some (.int 0) ∧
          report.at? ["aggregate", "gate_failures"] = some (.int 0)) ∧
        (s.hasFormat "text" = true →
          s.delivery d' (.ok report) (es.filterMap (·.result)) = .ok ()) := by
  constructor
  · intro e d path upper c names hc hnames time es
    obtain ⟨threshold?, -, hon⟩ := Config.exists_threshold hc
    obtain ⟨report, hreport⟩ :=
      Report.exists_sweepDocument (Report.exists_gate hon hnames) time es
    exact ⟨report, hreport, Report.givesAccount_of_sweepDocument hreport⟩
  · intro w d given r s d' es names h hnames _ _
    obtain ⟨threshold?, -, hon⟩ := Config.exists_threshold h.config
    have hgate := Report.exists_gate hon hnames
    obtain ⟨report, hreport⟩ := Report.exists_sweepDocument hgate s.time es
    obtain ⟨console, hrun⟩ := h.exists_run
    obtain ⟨hle, hzero⟩ := Scan.code_eq_zero_iff_delivery hgate d' es
    refine ⟨report, _, console, hreport, hrun, hle, ?_, fun htext => if_pos htext⟩
    rw [hzero, hreport, (Report.givesAccount_of_sweepDocument hreport).passes_iff]

/-- A morning without settings in the environment. -/
def morning : Surroundings := ⟨{}, "2024-05-01T06:00:00Z"⟩

/-- A configuration that stops what is incompatible, with given settings for the output. -/
def stopping (output : OutputSettings) : Config :=
  { gate := ⟨.text Verdict.incompatible.name, .list []⟩, output }

/-- Without a file of settings, what is incompatible is stopped. -/
theorem load_stopping {d : Disk} (h : Config.filePath? d .null = .ok none) :
    Config.load {} d .null .null = .ok (stopping {}) := by
  unfold Config.load
  rw [h]
  rfl

/-- So it is on the market. -/
theorem load_market : Config.load {} market .null .null = .ok (stopping {}) :=
  load_stopping (by decide +kernel)

/-- A sweep over all plugins of the market. -/
def marketScan : Program.Scan := ⟨"/", stopping {}, false, false, morning.time⟩

/-- One of the two plugins on the market has no result, which the report counts, and so the run ends
with one. -/
theorem sweep_accounts_agree_market : ∃ es report console,
    Sweeps morning market ["/", "--discover"] ⟨[(.discover, [])], some "/", []⟩ marketScan market
      es ∧ marketScan.config.gate.targets = .list (([] : List Text).map .text) ∧
    (∃ bytes, Utf8.encode (run morning market ["/", "--discover"]).2.printed = .ok bytes) ∧
    marketScan.ReportsWithinReach market
      (Report.sweepDocument marketScan.config marketScan.time es) ∧
    Report.sweepDocument marketScan.config marketScan.time es = .ok report ∧
    report.at? ["aggregate", "error_count"] = some (.int 1) ∧
    run morning market ["/", "--discover"] = (.exit 1, console) := by
  have hps : Discovery.plugins market (Path.tidy "/") = .ok [⟨"/p", "x"⟩, ⟨"/q", "q"⟩] := by
    decide +kernel
  obtain ⟨es, hes, hcounted⟩ := Attempt.map_eq_ok_iff.mp
    (show (marketScan.analyzer.analyzeMany market ["/p", "/q"] none).map (fun es =>
      (es.countP (·.result.isNone), (Report.sweepDocument marketScan.config marketScan.time
        es).toOption.all (·.height ≤ callLimit))) = .ok (1, true) by decide +kernel)
  obtain ⟨hnone, hheight⟩ := Prod.mk.inj hcounted
  have h : Sweeps morning market ["/", "--discover"] ⟨[(.discover, [])], some "/", []⟩ marketScan
      market es :=
    ⟨by decide, by decide +kernel, rfl, ⟨rfl, by decide⟩, rfl, load_market, rfl, rfl, rfl,
      leads_setUpLog rfl _ _ _, by decide +kernel, _, by simp, hps, hes⟩
  have hprinted : ∃ bytes, Utf8.encode (run morning market ["/", "--discover"]).2.printed =
      .ok bytes := Attempt.exists_of_isOk (by decide +kernel)
  have hreach : marketScan.ReportsWithinReach market
      (Report.sweepDocument marketScan.config marketScan.time es) := by
    refine ⟨fun v hv => ?_, fun path hpath => (nomatch hpath)⟩
    rw [hv] at hheight
    exact of_decide_eq_true hheight
  obtain ⟨report, code, console, hreport, hrun, hle, hzero, -⟩ :=
    sweep_accounts_agree.2 _ _ _ _ _ _ _ [] h rfl hprinted hreach
  obtain ⟨report', hreport', haccount⟩ :=
    sweep_accounts_agree.1 _ _ _ _ _ [] h.config rfl marketScan.time es
  cases hreport.symm.trans hreport'
  -- The report counts one plugin without a result, so the code cannot be zero, and it is at most
  -- one.
  have herrors : report.at? ["aggregate", "error_count"] = some (.int 1) := by
    rw [haccount.errors, hnone]
    rfl
  obtain rfl : code = 1 := by
    have hone : code ≠ 0 := by
      intro h
      have hcount := (hzero.mp h).2.1
      rw [herrors] at hcount
      cases hcount
    omega
  exact ⟨es, report, console, h, rfl, hprinted, hreach, hreport, herrors, hrun⟩

/-- The arguments of a run that is to write its report to a directory that is missing. -/
def lostArguments : List Text :=
  ["/p", "--discover", "--format", "json", "--output-file", "nowhere/r.json"]

/-- The sweep that they ask for. -/
def lostScan : Program.Scan :=
  ⟨"/p", stopping { format := .text "json", file := .text "nowhere/r.json" }, false, false,
    morning.time⟩

/-- The one plugin that is found passes, and the report counts nothing against it, but since it
cannot be written the run ends with one. -/
theorem lost_report_fails : ∃ es report console,
    Sweeps morning market lostArguments
      ⟨[(.discover, []), (.format, "json"), (.outputFile, "nowhere/r.json")], some "/p", []⟩
      lostScan market es ∧ es ≠ [] ∧
    lostScan.config.gate.targets = .list (([] : List Text).map .text) ∧
    Report.sweepDocument lostScan.config lostScan.time es = .ok report ∧
    report.at? ["aggregate", "error_count"] = some (.int 0) ∧
    report.at? ["aggregate", "gate_failures"] = some (.int 0) ∧
    run morning market lostArguments = (.exit 1, console) := by
  have hps : Discovery.plugins market (Path.tidy "/p") = .ok [⟨"/p", "x"⟩] := by decide +kernel
  obtain ⟨es, hes, hpair⟩ := Attempt.map_eq_ok_iff.mp
    (show (lostScan.analyzer.analyzeMany market ["/p"] none).map
      (fun es => (es.length, es.foldlM lostScan.codeAfter 0)) = .ok (1, .ok 0) by decide +kernel)
  obtain ⟨hlength, hcode⟩ := Prod.mk.inj hpair
  have h : Sweeps morning market lostArguments
      ⟨[(.discover, []), (.format, "json"), (.outputFile, "nowhere/r.json")], some "/p", []⟩
      lostScan market es :=
    ⟨by decide, by decide +kernel, rfl, ⟨rfl, by decide⟩, rfl, rfl, rfl, rfl, rfl,
      leads_setUpLog rfl _ _ _, by decide +kernel, _, by simp, hps, hes⟩
  have hon : lostScan.config.gate.failOn = Config.thresholdValue (some .incompatible) := rfl
  have hnames : lostScan.config.gate.targets = .list (([] : List Text).map .text) := rfl
  obtain ⟨report, hreport⟩ :=
    Report.exists_sweepDocument (Report.exists_gate hon hnames) lostScan.time es
  have hcounts := (Report.givesAccount_of_sweepDocument hreport).passes_iff.mp
    ((Scan.code_eq_zero_iff hcode).1.mp rfl)
  -- The place of the report is refused before its text is looked at.
  have hplace : Report.place market "nowhere/r.json" = .error (.output (.noParent "/nowhere")) := by
    decide +kernel
  have hlost : lostScan.code market es = 1 := by
    unfold Scan.code
    rw [hreport, Scan.delivery_of_file (by decide) (by decide) (by decide) rfl]
    unfold Report.writeTo
    rw [hplace]
    rfl
  obtain ⟨console, hrun⟩ := h.exists_run
  rw [hlost] at hrun
  refine ⟨es, report, console, h, ?_, hnames, hreport, hcounts.1, hcounts.2, hrun⟩
  rintro rfl
  cases hlength

end SurfaceAudit
