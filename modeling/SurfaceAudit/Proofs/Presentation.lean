import SurfaceAudit.Proofs.CommandLayers
import SurfaceAudit.Proofs.Endings
import SurfaceAudit.Proofs.JsonTexts

/-!
# The presentation of a run

A step of a run is known by what it prints, by what it comes to and by the files that it leaves,
whatever was printed before (`Step.Tells`). So what a run prints about one plugin, and the code that
it ends with, are told by the analysis alone (`Program.Looks.exists_run`). Command lines that differ
in the presentation of a run lead to the same code, and what is printed is the report and nothing
else (`presentation_changes_no_outcome`). The code is one, though, if the path of the plugin leads
nowhere for the system, even where the analysis finds a plugin that passes
(`sound_plugins_fail`).
-/

namespace SurfaceAudit

namespace Step

variable {α β : Type} {d d' d₁ : Disk} {s t : Text}

/-- A step adds a text to a part of the console and comes to an outcome from some files, whatever
was there before, and leaves some files. -/
def Adds (part : Console → Text) (x : Step α) (d : Disk) (t : Text) (outcome : Except Ending α)
    (d' : Disk) : Prop :=
  ∀ console : Console, console.disk = d → ∃ console', x.run.run console = (outcome, console') ∧
    console'.disk = d' ∧ part console' = part console ++ t

namespace Adds

variable {part : Console → Text} {x : Step α} {f : α → Step β}

/-- What a step adds stands before what the next one adds. -/
theorem bind {a : α} {outcome : Except Ending β} (hx : x.Adds part d s (.ok a) d₁)
    (hf : (f a).Adds part d₁ t outcome d') : (x >>= f).Adds part d (s ++ t) outcome d' := by
  intro console hdisk
  obtain ⟨c₁, hrun, hdisk₁, hpart₁⟩ := hx console hdisk
  obtain ⟨c', hrun', hdisk', hpart'⟩ := hf c₁ hdisk₁
  refine ⟨c', ?_, hdisk', ?_⟩
  · rw [ExceptT.run_bind, StateT.run_bind, hrun]
    exact hrun'
  · rw [hpart', hpart₁, List.append_assoc]

/-- After a step that adds nothing the next one adds all. -/
theorem bind_silent {a : α} {outcome : Except Ending β} (hx : x.Adds part d [] (.ok a) d₁)
    (hf : (f a).Adds part d₁ t outcome d') : (x >>= f).Adds part d t outcome d' := hx.bind hf

/-- A step that ends the run keeps the next one from being taken. -/
theorem bind_error {e : Ending} (hx : x.Adds part d t (.error e) d') :
    (x >>= f).Adds part d t (.error e) d' := by
  intro console hdisk
  obtain ⟨c', hrun, hrest⟩ := hx console hdisk
  refine ⟨c', ?_, hrest⟩
  rw [ExceptT.run_bind, StateT.run_bind, hrun]
  rfl

/-- Nothing is dealt with in a step that gives a value. -/
theorem handle_ok {g : Fault → Step α} {a : α} (hx : x.Adds part d t (.ok a) d') :
    (handle x g).Adds part d t (.ok a) d' := by
  intro console hdisk
  obtain ⟨c', hrun, hrest⟩ := hx console hdisk
  exact ⟨c', by rw [run_handle, hrun], hrest⟩

/-- From the fault of a step a run goes on as the fault is dealt with. -/
theorem handle_fault {g : Fault → Step α} {e : Fault} {outcome : Except Ending α}
    (hx : x.Adds part d s (.error (.fault e)) d₁) (hg : (g e).Adds part d₁ t outcome d') :
    (handle x g).Adds part d (s ++ t) outcome d' := by
  intro console hdisk
  obtain ⟨c₁, hrun, hdisk₁, hpart₁⟩ := hx console hdisk
  obtain ⟨c', hrun', hdisk', hpart'⟩ := hg c₁ hdisk₁
  refine ⟨c', ?_, hdisk', ?_⟩
  · rw [run_handle, hrun]
    exact hrun'
  · rw [hpart', hpart₁, List.append_assoc]

/-- After a fault with which nothing is added all is added as the fault is dealt with. -/
theorem handle_silent {g : Fault → Step α} {e : Fault} {outcome : Except Ending α}
    (hx : x.Adds part d [] (.error (.fault e)) d₁) (hg : (g e).Adds part d₁ t outcome d') :
    (handle x g).Adds part d t outcome d' := hx.handle_fault hg

end Adds

/-- A step prints a text and comes to an outcome from some files, whatever was printed before, and
leaves some files. -/
def Tells (x : Step α) (d : Disk) (t : Text) (outcome : Except Ending α) (d' : Disk) : Prop :=
  ∀ console : Console, console.disk = d → ∃ console', x.run.run console = (outcome, console') ∧
    console'.disk = d' ∧ console'.printed = console.printed ++ t

/-- What is told is added to what was printed. -/
theorem tells_iff_adds {x : Step α} {outcome : Except Ending α} :
    x.Tells d t outcome d' ↔ x.Adds Console.printed d t outcome d' := Iff.rfl

/-- What a step prints stands before what the next one prints. -/
theorem Tells.bind {x : Step α} {f : α → Step β} {a : α} {outcome : Except Ending β}
    (hx : x.Tells d s (.ok a) d₁) (hf : (f a).Tells d₁ t outcome d') :
    (x >>= f).Tells d (s ++ t) outcome d' :=
  tells_iff_adds.mpr ((tells_iff_adds.mp hx).bind (tells_iff_adds.mp hf))

/-- After a step that prints nothing the next one prints all. -/
theorem Tells.bind_silent {x : Step α} {f : α → Step β} {a : α} {outcome : Except Ending β}
    (hx : x.Tells d [] (.ok a) d₁) (hf : (f a).Tells d₁ t outcome d') :
    (x >>= f).Tells d t outcome d' :=
  tells_iff_adds.mpr ((tells_iff_adds.mp hx).bind_silent (tells_iff_adds.mp hf))

/-- A step that ends the run keeps the next one from being taken. -/
theorem Tells.bind_error {x : Step α} {f : α → Step β} {e : Ending}
    (hx : x.Tells d t (.error e) d') : (x >>= f).Tells d t (.error e) d' :=
  tells_iff_adds.mpr (tells_iff_adds.mp hx).bind_error

/-- A step that changes nothing but what is not printed. -/
theorem tells_of_run {x : Step α} {outcome : Except Ending α}
    (h : ∀ console : Console, console.disk = d →
      ∃ console', x.run.run console = (outcome, console') ∧ console'.disk = d' ∧
        console'.printed = console.printed) : x.Tells d [] outcome d' := by
  intro console hdisk
  obtain ⟨c', hrun, hdisk', hprinted⟩ := h console hdisk
  exact ⟨c', hrun, hdisk', by rw [hprinted, List.append_nil]⟩

/-- A step that does nothing prints nothing. -/
theorem tells_pure (a : α) (d : Disk) : (pure a : Step α).Tells d [] (.ok a) d :=
  tells_of_run fun console hdisk => ⟨console, rfl, hdisk, rfl⟩

/-- A text that is printed is printed. -/
theorem tells_print (t : Text) (d : Disk) : (print t).Tells d t (.ok ()) d :=
  fun _ hdisk => ⟨_, rfl, hdisk, rfl⟩

/-- A complaint is not printed. -/
theorem tells_complain (t : Text) (d : Disk) : (complain t).Tells d [] (.ok ()) d :=
  tells_of_run fun _ hdisk => ⟨_, rfl, hdisk, rfl⟩

/-- Nothing is printed at the end of a run. -/
theorem tells_exit (code : Nat) (d : Disk) :
    (exit code : Step α).Tells d [] (.error (.exit code)) d :=
  tells_of_run fun console hdisk => ⟨console, rfl, hdisk, rfl⟩

/-- Nothing is printed when the files are asked for. -/
theorem tells_disk (d : Disk) : disk.Tells d [] (.ok d) d :=
  tells_of_run fun console hdisk => ⟨console, by rw [← hdisk]; rfl, hdisk, rfl⟩

/-- An attempt prints nothing. -/
theorem tells_attempt (x : Attempt α) (d : Disk) :
    (attempt x).Tells d [] (x.mapError .fault) d :=
  tells_of_run fun console hdisk => ⟨console, rfl, hdisk, rfl⟩

/-- An attempt that gives a value gives it to the step. -/
theorem tells_attempt_ok {x : Attempt α} {a : α} (h : x = .ok a) (d : Disk) :
    (attempt x).Tells d [] (.ok a) d := by
  rw [h]
  exact tells_attempt _ d

/-- An attempt that fails ends the step. -/
theorem tells_attempt_error {x : Attempt α} {e : Fault} (h : x = .error e) (d : Disk) :
    (attempt x).Tells d [] (.error (.fault e)) d := by
  rw [h]
  exact tells_attempt _ d

/-- A change of the files prints nothing. -/
theorem tells_change {f : Disk → Attempt α × Disk} {a : α} (h : f d = (.ok a, d')) :
    (change f).Tells d [] (.ok a) d' := by
  refine tells_of_run ?_
  rintro console rfl
  have hrun : (change f).run.run console =
      ((f console.disk).1.mapError .fault, { console with disk := (f console.disk).2 }) := rfl
  rw [h] at hrun
  exact ⟨_, hrun, rfl, rfl⟩

/-- Nothing is dealt with in a step that gives a value. -/
theorem Tells.handle_ok {x : Step α} {f : Fault → Step α} {a : α} (hx : x.Tells d t (.ok a) d') :
    (handle x f).Tells d t (.ok a) d' := tells_iff_adds.mpr (tells_iff_adds.mp hx).handle_ok

/-- From the fault of a step a run goes on as the fault is dealt with. -/
theorem Tells.handle_fault {x : Step α} {f : Fault → Step α} {e : Fault}
    {outcome : Except Ending α} (hx : x.Tells d s (.error (.fault e)) d₁)
    (hf : (f e).Tells d₁ t outcome d') : (handle x f).Tells d (s ++ t) outcome d' :=
  tells_iff_adds.mpr ((tells_iff_adds.mp hx).handle_fault (tells_iff_adds.mp hf))

end Step

namespace Program

open CommandLine

namespace Scan

variable {s : Scan} {d : Disk} {r : Result}

/-- The analysis of the plugin at the path of a scan. -/
def analysis (s : Scan) (d : Disk) : Attempt Result := s.analyzer.analyze d (Path.tidy s.path)

/-- The report on a result of the scan. -/
def document (s : Scan) (r : Result) : Attempt Value :=
  Report.document s.config s.time r (Path.tidy s.path)

/-- The formats of reports. -/
def formats : List Text := ["text", "json", "csv"]

/-- What is printed as the report on a result, given its JSON text. -/
def reportText (s : Scan) (r : Result) (json : Text) : Text :=
  if s.hasFormat "text" then []
  else if s.hasFormat "json" then json ++ [.scalar '\n']
  else Report.table [r]

/-- What is printed about a result, given the JSON text of the report. -/
def printout (s : Scan) (r : Result) (json : Text) : Text :=
  (if s.showsOverview then Report.overview r else []) ++ s.reportText r json

/-- A scan has one of the formats and prints its reports. -/
structure Prints (s : Scan) : Prop where
  /-- The format is one of those that there are. -/
  format : ∃ f ∈ formats, s.config.output.format = .text f
  /-- There is no file for the report. -/
  file : s.hasFile = false

/-- A scan has one of the formats, and no other. -/
theorem Prints.format_cases (h : s.Prints) :
    (s.hasFormat "text" = true ∧ s.hasFormat "json" = false ∧ s.hasFormat "csv" = false) ∨
    (s.hasFormat "text" = false ∧ s.hasFormat "json" = true ∧ s.hasFormat "csv" = false) ∨
    (s.hasFormat "text" = false ∧ s.hasFormat "json" = false ∧ s.hasFormat "csv" = true) := by
  obtain ⟨f, hf, hformat⟩ := h.format
  unfold hasFormat
  rw [hformat]
  simp only [formats, List.mem_cons, List.not_mem_nil, or_false] at hf
  rcases hf with rfl | rfl | rfl
  · exact .inl (by decide)
  · exact .inr (.inl (by decide))
  · exact .inr (.inr (by decide))

/-- In the format of texts the overview is all that is printed, unless less is to be told. -/
theorem printout_text (hformat : s.hasFormat "text" = true) (r : Result) (json : Text) :
    s.printout r json = if s.quiet then [] else Report.overview r := by
  unfold printout reportText showsOverview
  rw [hformat]
  cases s.quiet <;> simp

/-- In another format there is no overview. -/
theorem Prints.showsOverview_eq_false (h : s.Prints) (hformat : s.hasFormat "text" = false) :
    s.showsOverview = false := by
  unfold showsOverview
  rw [hformat, h.file, Bool.or_self, Bool.and_false]

/-- In JSON the report is all that is printed. -/
theorem Prints.printout_json (h : s.Prints) (hformat : s.hasFormat "json" = true) (r : Result)
    (json : Text) : s.printout r json = json ++ [.scalar '\n'] := by
  rcases h.format_cases with ⟨-, hno, -⟩ | ⟨htext, -, -⟩ | ⟨-, hno, -⟩
  · cases hformat.symm.trans hno
  · unfold printout reportText
    rw [h.showsOverview_eq_false htext, htext, hformat]
    rfl
  · cases hformat.symm.trans hno

/-- As a table the evidence is all that is printed. -/
theorem Prints.printout_csv (h : s.Prints) (hformat : s.hasFormat "csv" = true) (r : Result)
    (json : Text) : s.printout r json = Report.table [r] := by
  rcases h.format_cases with ⟨-, -, hno⟩ | ⟨-, -, hno⟩ | ⟨htext, hjson, -⟩
  · cases hformat.symm.trans hno
  · cases hformat.symm.trans hno
  · unfold printout reportText
    rw [h.showsOverview_eq_false htext, htext, hjson]
    rfl

/-- A report is printed, if its JSON text can be written. -/
theorem Prints.tells_report (h : s.Prints) {v : Value} {json : Text}
    (hjson : Json.write v = .ok json) (r : Result) (d : Disk) :
    (s.report (.ok v) [r]).Tells d (s.reportText r json) (.ok ()) d := by
  unfold report reportText
  rcases h.format_cases with ⟨htext, -, -⟩ | ⟨htext, hjson', -⟩ | ⟨htext, hjson', hcsv⟩
  · rw [htext]
    exact Step.tells_pure () d
  · rw [htext, hjson', if_neg Bool.false_ne_true, if_neg Bool.false_ne_true, if_pos rfl, if_pos rfl]
    unfold reportDocument
    rw [h.file]
    refine (Step.tells_attempt_ok rfl d).bind_silent ?_
    exact (Step.tells_attempt_ok hjson d).bind_silent (Step.tells_print _ d)
  · rw [htext, hjson', hcsv, if_neg Bool.false_ne_true, if_neg Bool.false_ne_true,
      if_neg Bool.false_ne_true, if_neg Bool.false_ne_true, if_pos rfl]
    unfold reportTable
    rw [h.file]
    exact Step.tells_print _ d

/-- The code for a result with failures at the gate. -/
def codeFor (fs : List (Target × Verdict)) : Nat := if fs.isEmpty then 0 else 1

/-- A scan of one plugin with a result prints the overview and the report, and comes to the code for
the failures at the gate. -/
theorem Prints.tells_single (h : s.Prints) (hthere : d.contains (Path.tidy s.path) = .ok true)
    (hr : s.analysis d = .ok r) {v : Value} {json : Text} (hv : s.document r = .ok v)
    (hjson : Json.write v = .ok json) {fs : List (Target × Verdict)}
    (hfs : s.config.gateFailures r.analyzed = .ok fs) :
    s.single.Tells d (s.printout r json) (.ok (codeFor fs)) d := by
  have hpasses : s.passes r = .ok fs.isEmpty := by
    unfold passes
    rw [hfs]
    rfl
  have hend : (s.report (s.document r) [r] >>= fun _ => Step.attempt (s.passes r) >>= fun passed =>
      pure (if passed then 0 else 1)).Tells d (s.reportText r json ++ []) (.ok (codeFor fs)) d := by
    rw [hv]
    exact (h.tells_report hjson r d).bind
      ((Step.tells_attempt_ok hpasses d).bind_silent (Step.tells_pure (codeFor fs) d))
  rw [List.append_nil] at hend
  unfold single
  -- Nothing is printed before the result is there, and then the overview first, if at all.
  refine (Step.tells_disk d).bind_silent ?_
  refine (Step.tells_attempt_ok hthere d).bind_silent ?_
  rw [if_neg (by simp)]
  refine (Step.tells_attempt_ok hr d).bind_silent ?_
  unfold printout
  split
  · exact (Step.tells_print _ d).bind hend
  · exact hend

/-- The path of a scan leads to a plugin that has a result. -/
def Finds (s : Scan) (d : Disk) (r : Result) : Prop :=
  d.contains (Path.tidy s.path) = .ok true ∧ s.analysis d = .ok r

/-- A scan of one plugin whose path leads nowhere, or whose analysis fails, prints nothing, and
comes to one or has a fault. -/
theorem tells_single_of_not (h : ∀ r, ¬s.Finds d r) :
    s.single.Tells d [] (.ok 1) d ∨ ∃ e, s.single.Tells d [] (.error (.fault e)) d := by
  unfold single
  -- The path is looked up first: it cannot be, nothing is there, or the analysis of what is there
  -- fails.
  cases hthere : d.contains (Path.tidy s.path) with
  | error e =>
    refine .inr ⟨e, (Step.tells_disk d).bind_silent ?_⟩
    exact (Step.tells_attempt_error hthere d).bind_error
  | ok there =>
    cases there with
    | false =>
      refine .inl ((Step.tells_disk d).bind_silent ?_)
      refine (Step.tells_attempt_ok hthere d).bind_silent ?_
      exact (Step.tells_complain _ d).bind_silent (Step.tells_pure 1 d)
    | true =>
      cases hr : s.analysis d with
      | ok r => exact absurd ⟨hthere, hr⟩ (h r)
      | error e =>
        refine .inr ⟨e, (Step.tells_disk d).bind_silent ?_⟩
        refine (Step.tells_attempt_ok hthere d).bind_silent ?_
        exact (Step.tells_attempt_error hr d).bind_error

/-- What a run of a scan delivers: a code, and what is printed. -/
structure Delivers (s : Scan) (d : Disk) (code : Nat) (printed : Text) : Prop where
  /-- The code is zero or one. -/
  code_le : code ≤ 1
  /-- It is zero exactly if the path leads to a plugin with a result that passes the gate. -/
  code_eq_zero_iff : code = 0 ↔
    ∃ r, s.Finds d r ∧ s.config.gateFailures r.analyzed = .ok []
  /-- Without a result nothing is printed. -/
  silent : (∀ r, ¬s.Finds d r) → printed = []
  /-- In JSON the report is printed, which says whether the code is zero. -/
  json : s.hasFormat "json" = true → ∀ r, s.Finds d r →
    ∃ report text, s.document r = .ok report ∧ Json.write report = .ok text ∧
      printed = text ++ [.scalar '\n'] ∧
      report.at? ["gate", "passed"] = some (.bool (code == 0))
  /-- As a table the evidence is printed. -/
  csv : s.hasFormat "csv" = true → ∀ r, s.Finds d r → printed = Report.table [r]
  /-- In the format of texts the overview is printed, unless less is to be told. -/
  text : s.hasFormat "text" = true → ∀ r, s.Finds d r →
    printed = if s.quiet then [] else Report.overview r

/-- Without a result a scan delivers the code one and nothing that is printed. -/
theorem delivers_of_not (h : ∀ r, ¬s.Finds d r) : s.Delivers d 1 [] where
  code_le := Nat.le_refl 1
  code_eq_zero_iff := iff_of_false Nat.one_ne_zero fun ⟨r, hr, _⟩ => h r hr
  silent _ := rfl
  json _ r hr := absurd hr (h r)
  csv _ r hr := absurd hr (h r)
  text _ r hr := absurd hr (h r)

/-- With a result a scan delivers the code for the failures at the gate and the printout. -/
theorem Prints.delivers (h : s.Prints) (hr : s.Finds d r) {fs : List (Target × Verdict)}
    (hfs : s.config.gateFailures r.analyzed = .ok fs) {v : Value} {json : Text}
    (hv : s.document r = .ok v) (hpassed : v.at? ["gate", "passed"] = some (.bool fs.isEmpty))
    (hjson : Json.write v = .ok json) : s.Delivers d (codeFor fs) (s.printout r json) := by
  -- There is one result at most, so what is delivered for some result is delivered for this one.
  have hunique {r' : Result} (hr' : s.Finds d r') : r' = r :=
    Except.ok.inj (hr'.2.symm.trans hr.2)
  have hzero : codeFor fs = 0 ↔ fs = [] := by
    unfold codeFor
    cases fs <;> simp
  refine ⟨?_, ?_, fun hnot => absurd hr (hnot r), fun hformat r' hr' => ?_,
    fun hformat r' hr' => ?_, fun hformat r' hr' => ?_⟩
  · unfold codeFor
    split <;> omega
  · rw [hzero]
    constructor
    · rintro rfl
      exact ⟨r, hr, hfs⟩
    · rintro ⟨r', hr', hpass⟩
      cases hunique hr'
      exact Except.ok.inj (hfs.symm.trans hpass)
  · cases hunique hr'
    refine ⟨v, json, hv, hjson, h.printout_json hformat r json, hpassed.trans ?_⟩
    unfold codeFor
    cases fs <;> rfl
  · cases hunique hr'
    exact h.printout_csv hformat r json
  · cases hunique hr'
    exact printout_text hformat r json

/-- There is a report on every result if the mode is a text, the threshold can be one and the
surfaces of the gate are a list of texts, and it says whether the result passes. -/
theorem exists_document {mode : Text} {threshold? : Option Verdict} {names : List Text}
    (hmode : s.config.mode = .text mode)
    (hon : s.config.gate.failOn = Config.thresholdValue threshold?)
    (hnames : s.config.gate.targets = .list (names.map .text)) (hr : r.IsWritable) :
    ∃ v json fs, s.document r = .ok v ∧ Json.write v = .ok json ∧
      s.config.gateFailures r.analyzed = .ok fs ∧
      v.at? ["gate", "passed"] = some (.bool fs.isEmpty) := by
  obtain ⟨g, hg⟩ := Report.exists_gate hon hnames r
  obtain ⟨json, hjson⟩ := (Report.isJson_resultDocument hmode hon hr hg s.time
    (Path.tidy s.path)).exists_write
  have hdocument : s.document r =
      .ok (Report.resultDocument s.config s.time (Path.tidy s.path) r g) := by
    unfold document Report.document
    rw [hg]
    rfl
  exact ⟨_, json, g.failures, hdocument, hjson, Report.gateFailures_of_gate hg, rfl⟩

/-- The log of a scan is kept apart from the plugin: there is none, or its file can be opened, and
whatever is written there, the path leads somewhere as before, and the analysis comes to the same.
-/
def LogApart (s : Scan) (d : Disk) : Prop :=
  s.config.logging.file.isTrue = false ∨
    ∃ file, s.config.logging.file = .text file ∧ (openLog d file).1 = .ok () ∧
      ∀ content d', d.write (Path.absolute (lexicalNames d file)) content = .ok d' →
        d'.contains (Path.tidy s.path) = d.contains (Path.tidy s.path) ∧
          s.analysis d' = s.analysis d

/-- A log that is opened is written, or the files are left alone. -/
theorem of_openLog {file : Text} (h : (openLog d file).1 = .ok ()) : openLog d file = (.ok (), d) ∨
    ∃ d', openLog d file = (.ok (), d') ∧
      d.write (Path.absolute (lexicalNames d file)) [] = .ok d' := by
  -- A log that is there already is opened for appending, which changes nothing before something is
  -- logged.
  unfold openLog at h ⊢
  dsimp only at h ⊢
  cases hname : Disk.nameFault? (Path.absolute (lexicalNames d file)) with
  | some f =>
    rw [hname] at h
    cases h
  | none =>
    rw [hname] at h
    dsimp only at h ⊢
    split
    · exact .inl rfl
    · rename_i hnone
      cases hwrite : d.write (Path.absolute (lexicalNames d file)) [] with
      | ok d' => exact .inr ⟨d', rfl, rfl⟩
      | error f =>
        rw [hwrite] at h
        split at h
        · rename_i hfound
          exact absurd hfound (hnone _)
        · cases h

/-- Setting up a log that is kept apart prints nothing, and leaves files on which the path leads
somewhere as before and the analysis comes to the same. -/
theorem LogApart.exists_tells (h : s.LogApart d) (verbose quiet : Bool) :
    ∃ d', (setUpLog s.config.logging verbose quiet).Tells d [] (.ok ()) d' ∧
      d'.contains (Path.tidy s.path) = d.contains (Path.tidy s.path) ∧
      s.analysis d' = s.analysis d := by
  have hset (file? : Option Text) (d' : Disk) :
      (modify fun c : Console => { c with
        log := some ⟨Log.levelFor s.config.logging.level verbose quiet, file?⟩ } : Step Unit).Tells
        d' [] (.ok ()) d' := Step.tells_of_run fun _ hdisk => ⟨_, rfl, hdisk, rfl⟩
  unfold setUpLog
  -- Only the opening of a file can change the files; that the log is set up afterwards does not.
  cases htrue : s.config.logging.file.isTrue with
  | false => exact ⟨d, (Step.tells_pure none d).bind_silent (hset none d), rfl, rfl⟩
  | true =>
    rcases h with hfalse | ⟨file, hfile, hopen, happart⟩
    · cases htrue.symm.trans hfalse
    rw [if_pos rfl]
    have hpath := Step.tells_attempt_ok (show Log.pathOf s.config.logging.file = .ok file by
      rw [hfile, Log.pathOf]) d
    rcases of_openLog hopen with hd | ⟨d', hd', hwrite⟩
    · refine ⟨d, hpath.bind_silent ((Step.tells_change hd).bind_silent ?_), rfl, rfl⟩
      exact (Step.tells_pure (some file) d).bind_silent (hset (some file) d)
    · refine ⟨d', hpath.bind_silent ((Step.tells_change hd').bind_silent ?_),
        happart [] d' hwrite⟩
      exact (Step.tells_pure (some file) d').bind_silent (hset (some file) d')

end Scan

/-- A run over one plugin: the command line asks for a scan, the configuration is loaded, with a
text for the mode and a list of texts for the surfaces of the gate, the report is printed in one of
the formats, and the log is kept apart from the plugin. -/
structure Looks (w : Surroundings) (d : Disk) (given : List Text) (r : Reading ScanKey)
    (s : Scan) : Prop where
  /-- The command line is not one for the rules. -/
  command : given.head? ≠ some "rules"
  /-- It can be read. -/
  reading : scanGrammar.read given = .ok r
  /-- It does not ask for the modes. -/
  scans : r.has .listModes = false
  /-- It has a path. -/
  path : r.word = some s.path ∧ s.path ≠ []
  /-- It does not ask for a sweep. -/
  alone : r.has .discover = false
  /-- The configuration is loaded from all layers. -/
  config : Config.load w.environment d (((r.value? .config).map Value.text).getD .null)
    (if (layer r).isEmpty then .null else .map (layer r)) = .ok s.config
  /-- What is told is set on the command line or in the configuration. -/
  verbose : s.verbose = (r.has .verbose || s.config.output.verbose.isTrue)
  /-- Less is told if the command line asks for that. -/
  quiet : s.quiet = r.has .quiet
  /-- The time is that of the run. -/
  time : s.time = w.time
  /-- The mode is a text. -/
  mode : ∃ mode, s.config.mode = .text mode
  /-- The surfaces of the gate are a list of texts. -/
  targets : ∃ names : List Text, s.config.gate.targets = .list (names.map .text)
  /-- The report is printed. -/
  prints : s.Prints
  /-- The log is kept apart from the plugin. -/
  log : s.LogApart d
  /-- The numbers in a result can be written. -/
  numbers : ∀ result, s.analysis d = .ok result → result.IsWritable

variable {w : Surroundings} {given given' : List Text} {r r' : Reading ScanKey} {s s' : Scan}
  {d d' : Disk}

/-- On files on which the path leads somewhere as before and the analysis comes to the same, the
scan of a run delivers what it prints and the code that it comes to. -/
theorem Looks.exists_tells (h : Looks w d given r s)
    (hthere : d'.contains (Path.tidy s.path) = d.contains (Path.tidy s.path))
    (hsame : s.analysis d' = s.analysis d) : ∃ code t,
      (Step.handle s.single fun f => do
        Step.complain (faultLine s.verbose f)
        return 1).Tells d' t (.ok code) d' ∧ s.Delivers d code t := by
  by_cases hfinds : ∃ r, s.Finds d r
  · obtain ⟨result, hresult⟩ := hfinds
    obtain ⟨mode, hmode⟩ := h.mode
    obtain ⟨names, hnames⟩ := h.targets
    obtain ⟨threshold?, -, hon⟩ := Config.exists_threshold h.config
    obtain ⟨v, json, fs, hv, hjson, hfs, hpassed⟩ :=
      Scan.exists_document hmode hon hnames (h.numbers result hresult.2)
    have hsingle := h.prints.tells_single (hthere.trans hresult.1) (hsame.trans hresult.2) hv hjson
      hfs
    exact ⟨_, _, hsingle.handle_ok, h.prints.delivers hresult hfs hv hpassed hjson⟩
  · have hnot : ∀ r, ¬s.Finds d r := not_exists.mp hfinds
    have hnot' : ∀ r, ¬s.Finds d' r := fun r hr =>
      hnot r ⟨hthere.symm.trans hr.1, hsame.symm.trans hr.2⟩
    refine ⟨1, [], ?_, Scan.delivers_of_not hnot⟩
    -- A fault is complained about, which is not printed, and the code is one all the same.
    rcases Scan.tells_single_of_not hnot' with hone | ⟨e, hfault⟩
    · exact hone.handle_ok
    · exact hfault.handle_fault
        ((Step.tells_complain _ d').bind_silent (Step.tells_pure 1 d'))

/-- The scan that a run asks for ends it with the code, and prints the text, that it delivers. -/
theorem Looks.tells_scan (h : Looks w d given r s) : ∃ code t d',
    (scan w r s.path).Tells d t (.error (.exit code)) d' ∧ s.Delivers d code t := by
  obtain ⟨d', hlog, hthere, hsame⟩ := h.log.exists_tells s.verbose s.quiet
  obtain ⟨code, t, hsingle, hdelivers⟩ := h.exists_tells hthere hsame
  refine ⟨code, t, d', ?_, hdelivers⟩
  have hconfiguration : (configuration w.environment r).Tells d [] (.ok s.config) d :=
    (Step.tells_disk d).bind_silent (Step.tells_attempt_ok h.config d).handle_ok
  have hs : (⟨s.path, s.config, r.has .verbose || s.config.output.verbose.isTrue, r.has .quiet,
      w.time⟩ : Scan) = s := by
    rw [← h.verbose, ← h.quiet, ← h.time]
  rw [h.verbose, h.quiet] at hlog
  rw [h.verbose] at hsingle
  refine hconfiguration.bind_silent (hlog.bind_silent ?_)
  dsimp only
  rw [hs, h.alone, if_neg Bool.false_ne_true]
  have hend := hsingle.bind (Step.tells_exit (α := Unit) code d')
  rwa [List.append_nil] at hend

/-- A run over one plugin ends with the code, and has printed the text, that its scan delivers. -/
theorem Looks.exists_run (h : Looks w d given r s) : ∃ code console,
    run w d given = (.exit code, console) ∧ s.Delivers d code console.printed := by
  obtain ⟨code, t, d', hscan, hdelivers⟩ := h.tells_scan
  rw [← steps_eq_scan w h.command h.reading h.scans h.path] at hscan
  obtain ⟨console, hrun, -, hprinted⟩ := hscan ⟨d, [], [], none⟩ rfl
  refine ⟨code, console, ?_, ?_⟩
  · unfold run
    rw [hrun]
  · rw [hprinted]
    exact hdelivers

/-- The scans of command lines that ask alike are the same but for the presentation. -/
theorem Looks.same_scan (h : Looks w d given r s) (h' : Looks w d given' r' s')
    (halike : r.AsksAlike r') : s'.path = s.path ∧
      s'.config = { s.config with output := s'.config.output } := by
  have hpath : s'.path = s.path :=
    Option.some.inj (h'.path.1.symm.trans (halike.word.symm.trans h.path.1))
  have hfile : r'.value? .config = r.value? .config := by
    unfold Reading.value?
    rw [halike.values_eq rfl]
  have hload := h'.config
  rw [hfile] at hload
  exact ⟨hpath, Config.same_but_output (isKeyed_layer r) (isKeyed_layer r')
    (fun _ hkey => lookup_layer_eq halike hkey) h.config hload⟩

/-- The scans of command lines that ask alike find the same and judge it alike. -/
theorem Looks.finds_iff (h : Looks w d given r s) (h' : Looks w d given' r' s')
    (halike : r.AsksAlike r') (result : Result) : (s'.Finds d result ↔ s.Finds d result) ∧
      s'.config.gateFailures result.analyzed = s.config.gateFailures result.analyzed := by
  obtain ⟨hpath, hconfig⟩ := h.same_scan h' halike
  -- Neither the analysis nor the gate looks at the settings for the output.
  have hanalysis : s'.analysis d = s.analysis d := by
    unfold Scan.analysis Scan.analyzer
    rw [hpath, hconfig]
    rfl
  refine ⟨?_, ?_⟩
  · unfold Scan.Finds
    rw [hanalysis, hpath]
  · rw [hconfig]
    rfl

/-- A format on the command line is that of the scan. -/
theorem Looks.hasFormat_of_value? (h : Looks w d given r s) {f : Text}
    (hf : r.value? .format = some f) : s.hasFormat f = true := by
  obtain ⟨es, hes, hlookup⟩ := lookup_format r hf
  unfold Scan.hasFormat
  rw [Config.format_eq (isKeyed_layer r) hes hlookup h.config]
  exact Value.isText_iff.mpr rfl

end Program

open Program CommandLine

/-- How a run is presented changes nothing in what comes out. Two runs over one plugin, the command
lines of which differ at most in the format and in telling more or less, end with the same code: it
is zero if there is something at the path of the plugin, the analysis has a result, and that has no
failures at the gate, and one otherwise. What is printed is the report and nothing else: in JSON the
report, which says that the result passes exactly if the code is zero, and a line feed; as a table
the evidence; in the format of texts the overview, or nothing in a run that is to tell less. Without
a result nothing is printed. A format on the command line is the one of the run. -/
theorem presentation_changes_no_outcome (w : Surroundings) (d : Disk) (given given' : List Text)
    (r r' : Reading ScanKey) (s s' : Program.Scan) (h : Looks w d given r s)
    (h' : Looks w d given' r' s') (halike : r.AsksAlike r') :
    ∃ code console console', run w d given = (.exit code, console) ∧
      run w d given' = (.exit code, console') ∧
      s.Delivers d code console.printed ∧ s'.Delivers d code console'.printed ∧
      (∀ result, s'.Finds d result ↔ s.Finds d result) ∧
      (∀ f, r.value? .format = some f → s.hasFormat f = true) ∧
      ∀ f, r'.value? .format = some f → s'.hasFormat f = true := by
  obtain ⟨code, console, hrun, hdelivers⟩ := h.exists_run
  obtain ⟨code', console', hrun', hdelivers'⟩ := h'.exists_run
  have hiff (result : Result) := h.finds_iff h' halike result
  have hzero : code' = 0 ↔ code = 0 := by
    rw [hdelivers.code_eq_zero_iff, hdelivers'.code_eq_zero_iff]
    exact exists_congr fun result => by rw [(hiff result).1, (hiff result).2]
  -- Neither code is above one, and both are zero under the same condition.
  obtain rfl : code' = code := by
    have hle := hdelivers.code_le
    have hle' := hdelivers'.code_le
    omega
  exact ⟨code', console, console', hrun, hrun', hdelivers, hdelivers',
    fun result => (hiff result).1, fun _ hf => h.hasFormat_of_value? hf,
    fun _ hf => h'.hasFormat_of_value? hf⟩

/-- A run that is to print the report in JSON and to tell more. -/
def jsonReading : Reading ScanKey := ⟨[(.format, "json"), (.verbose, [])], some "/p", []⟩

/-- The scan that it asks for. -/
def jsonScan : Program.Scan :=
  ⟨"/p", stopping { format := .text "json", verbose := .bool true }, true, false, morning.time⟩

/-- A run that is to tell less about the plugin at a path. -/
def quietReading (path : Text) : Reading ScanKey := ⟨[(.quiet, [])], some path, []⟩

/-- The scan that it asks for. -/
def quietScan (path : Text) : Program.Scan := ⟨path, stopping {}, false, true, morning.time⟩

/-- A result has no numbers but zero, and passes the gate. -/
def IsBare (c : Config) (result : Result) : Prop :=
  result.evidence = [] ∧ result.summary = ⟨0, 0, 0, 0, 0⟩ ∧ c.gateFailures result.analyzed = .ok []

instance (c : Config) (result : Result) : Decidable (IsBare c result) :=
  inferInstanceAs (Decidable (_ ∧ _))

/-- The numbers of such a result can be written. -/
theorem IsBare.isWritable {c : Config} {result : Result} (h : IsBare c result) :
    result.IsWritable := by
  obtain ⟨hevidence, hsummary, -⟩ := h
  refine ⟨by simp [hevidence], ?_⟩
  rw [hsummary]
  decide +kernel

/-- An analysis has such a result if a test of it says so. -/
theorem exists_isBare {x : Attempt Result} {c : Config}
    (h : x.map (fun result => decide (IsBare c result)) = .ok true) :
    ∃ result, x = .ok result ∧ IsBare c result := by
  obtain ⟨result, hx, hbare⟩ := Attempt.map_eq_ok_iff.mp h
  exact ⟨result, hx, of_decide_eq_true hbare⟩

/-- A run that is to tell less about a plugin on the market whose result is bare looks at it. -/
theorem looks_quiet {path : Text} {result : Result}
    (hreading : scanGrammar.read [path, "-q"] = .ok (quietReading path)) (hpath : path ≠ [])
    (hcommand : path ≠ "rules") (hresult : (quietScan path).analysis market = .ok result)
    (hbare : IsBare (stopping {}) result) :
    Looks morning market [path, "-q"] (quietReading path) (quietScan path) where
  command := by simpa using hcommand
  reading := hreading
  scans := rfl
  path := ⟨rfl, hpath⟩
  alone := rfl
  config := load_market
  verbose := rfl
  quiet := rfl
  time := rfl
  mode := ⟨_, rfl⟩
  targets := ⟨[], rfl⟩
  prints := ⟨⟨_, List.mem_cons_self, rfl⟩, rfl⟩
  log := .inl rfl
  numbers result' h := by
    cases hresult.symm.trans h
    exact hbare.isWritable

/-- The plugin on the market passes, whether the report is printed in JSON, with more told, or
nothing is. -/
theorem presentation_changes_no_outcome_market : ∃ console console' json,
    Looks morning market ["/p", "--format", "json", "-v"] jsonReading jsonScan ∧
    Looks morning market ["/p", "-q"] (quietReading "/p") (quietScan "/p") ∧
    jsonReading.AsksAlike (quietReading "/p") ∧
    run morning market ["/p", "--format", "json", "-v"] = (.exit 0, console) ∧
    run morning market ["/p", "-q"] = (.exit 0, console') ∧
    console.printed = json ++ [.scalar '\n'] ∧ console'.printed = [] := by
  obtain ⟨result, hresult, hbare⟩ := exists_isBare (c := stopping {})
    (show ((quietScan "/p").analysis market).map _ = .ok true by decide +kernel)
  have hquiet : Looks morning market ["/p", "-q"] (quietReading "/p") (quietScan "/p") :=
    looks_quiet (by decide +kernel) (by decide) (by decide) hresult hbare
  have hjson : Looks morning market ["/p", "--format", "json", "-v"] jsonReading jsonScan :=
    ⟨by decide, by decide +kernel, rfl, ⟨rfl, by decide⟩, rfl, rfl, rfl, rfl, rfl, ⟨_, rfl⟩,
      ⟨[], rfl⟩, ⟨⟨_, List.mem_cons_of_mem _ List.mem_cons_self, rfl⟩, rfl⟩, .inl rfl,
      hquiet.numbers⟩
  have halike : jsonReading.AsksAlike (quietReading "/p") := ⟨rfl, rfl⟩
  -- The codes are the same by the theorem; that it is zero is seen from the run that prints
  -- nothing.
  have hfinds : (quietScan "/p").Finds market result := ⟨by decide +kernel, hresult⟩
  obtain ⟨code, console, console', hrun, hrun', hdelivers, hdelivers', hiff, -, -⟩ :=
    presentation_changes_no_outcome _ _ _ _ _ _ _ _ hjson hquiet halike
  obtain rfl : code = 0 := hdelivers'.code_eq_zero_iff.mpr ⟨result, hfinds, hbare.2.2⟩
  obtain ⟨report, json, -, -, hprinted, -⟩ :=
    hdelivers.json (by decide) result ((hiff result).mp hfinds)
  exact ⟨console, console', json, hjson, hquiet, halike, hrun, hrun', hprinted,
    hdelivers'.text (by decide) result hfinds⟩

/-- The place of the manifest that is looked for first. -/
def firstPlace : Text := "p/.claude-plugin/plugin.json"

/-- A disk with a plugin whose manifest is in the second place, and settings by which the log is in
the first. -/
def logged : Disk where
  root := .directory
    [("compat-scanner.yaml",
        .file "logging: \x7bfile: p/.claude-plugin/plugin.json\x7d".toUTF8.toList),
      ("p", .directory [(".claude-plugin", .directory []),
        ("plugin.json", .file "\x7b\"name\":\"x\"\x7d".toUTF8.toList)])]
  current := []

/-- Settings that are loaded are the default ones but for the file of the log. -/
def logsTo (file : Text) (c : Config) : Bool :=
  c.mode.isText "balanced" && c.gate.targets.items?.any List.isEmpty && !c.output.file.isTrue &&
    c.logging.file.isText file

/-- A run may end with one although the analysis of the plugin has a result that passes the gate: if
the path of the plugin leads through what is not there, for the system there is nothing at the
path; and the log, which is opened before the analysis, may take the place of the manifest. -/
theorem sound_plugins_fail :
    (∃ result console, Looks morning market ["/nowhere/../p", "-q"] (quietReading "/nowhere/../p")
        (quietScan "/nowhere/../p") ∧
      (quietScan "/nowhere/../p").analysis market = .ok result ∧
      (quietScan "/nowhere/../p").config.gateFailures result.analyzed = .ok [] ∧
      run morning market ["/nowhere/../p", "-q"] = (.exit 1, console)) ∧
    ∃ c result, Config.load {} logged .null .null = .ok c ∧ logsTo firstPlace c ∧
      (openLog logged firstPlace).1 = .ok () ∧
      ({ config := c, rules := Bundled.tables } : Analyzer).analyze logged "p" = .ok result ∧
      c.gateFailures result.analyzed = .ok [] ∧ (run morning logged ["p", "-q"]).1 = .exit 1 := by
  constructor
  · obtain ⟨result, hresult, hbare⟩ := exists_isBare (c := stopping {})
      (show ((quietScan "/nowhere/../p").analysis market).map _ = .ok true by decide +kernel)
    have hlooks : Looks morning market ["/nowhere/../p", "-q"] (quietReading "/nowhere/../p")
        (quietScan "/nowhere/../p") :=
      looks_quiet (by decide +kernel) (by decide) (by decide) hresult hbare
    have habsent : market.contains (Path.tidy "/nowhere/../p") = .ok false := by decide +kernel
    obtain ⟨code, console, hrun, hdelivers⟩ := hlooks.exists_run
    -- The analysis takes the missing name away with the step up, but the system looks for it.
    obtain rfl : code = 1 := by
      have hle := hdelivers.code_le
      have hzero : code ≠ 0 := fun h => by
        obtain ⟨r, ⟨hthere, -⟩, -⟩ := hdelivers.code_eq_zero_iff.mp h
        cases habsent.symm.trans hthere
      omega
    exact ⟨result, console, hlooks, hresult, hbare.2.2, hrun⟩
  · -- Before the run the manifest is in the second place, and is found there.
    have hload : (Config.load {} logged .null .null >>= fun c =>
        (({ config := c, rules := Bundled.tables } : Analyzer).analyze logged "p").map fun r =>
          (logsTo firstPlace c, c.gateFailures r.analyzed)) = .ok (true, .ok []) := by
      decide +kernel
    obtain ⟨c, hc, hresult⟩ := Attempt.bind_eq_ok_iff.mp hload
    obtain ⟨result, hresult, hpair⟩ := Attempt.map_eq_ok_iff.mp hresult
    obtain ⟨hlogs, hfailures⟩ := Prod.mk.inj hpair
    exact ⟨c, result, hc, hlogs, by decide +kernel, hresult, hfailures, by decide +kernel⟩

end SurfaceAudit
