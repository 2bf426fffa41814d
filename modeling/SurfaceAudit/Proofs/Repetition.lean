import SurfaceAudit.Plugin.Parser
import SurfaceAudit.Proofs.Reading

/-!
# A plugin is read again as it was read first

A reading begins a new list of notes, so that the notes of other calls do not get into its answer
(`Parser.seen_parse`), and its answer has a list of its own, which no call adds to any more
(`Parser.IsSettled`). One call keeps such a list as it is, and so do any number of calls. An
analysis reads with a new parser, and one that has answered calls before would do as well
(`Analyzer.survey_eq_parse_after`).
-/

namespace SurfaceAudit

namespace Parser

variable {α : Type} {s : Parser} {n : Nat}

/-- A list that was made holds the notes it was made of. -/
theorem notesOn_make_self (s : Parser) (ns : List Note) :
    (s.make ns).2.notesOn (s.make ns).1 = ns := by
  simp [make, notesOn, List.getD_eq_getElem?_getD]

/-- The other lists stay as they are when a list is made. -/
theorem notesOn_make (h : n < s.lists.length) (ns : List Note) :
    (s.make ns).2.notesOn n = s.notesOn n := by
  simp [make, notesOn, List.getD_eq_getElem?_getD, List.getElem?_append_left h]

/-- A new list is empty. -/
@[simp] theorem notes_renew (s : Parser) : s.renew.notes = [] := notesOn_make_self s []

/-- A step adds its notes to the list in use, which holds them afterwards. -/
theorem notes_take (h : s.current < s.lists.length) (step : Noting α) :
    (s.take step).2.notes = (step.runFrom s.notes).2 := by
  simp [take, notes, notesOn, List.getD_eq_getElem?_getD, h]

/-- The other lists stay as they are when a step is taken. -/
theorem notesOn_take (h : n ≠ s.current) (step : Noting α) :
    (s.take step).2.notesOn n = s.notesOn n := by
  simp [take, notesOn, List.getD_eq_getElem?_getD, List.getElem?_set_ne h.symm]

/-- The parser after its plugin was read, with the notes on a new list. -/
def reading (s : Parser) (d : Disk) : Parser := (s.renew.take (s.plugin.contents d)).2

/-- The new list holds the notes that a first reading takes. -/
theorem notes_reading (s : Parser) (d : Disk) :
    (s.reading d).notes = (s.plugin.contents d).notes := by
  have hcurrent : s.renew.current < s.renew.lists.length := by simp [renew, make]
  rw [reading, notes_take hcurrent, notes_renew]
  rfl

/-- The list that is in use after a reading is the new one. -/
theorem current_reading (s : Parser) (d : Disk) :
    (s.reading d).current = s.lists.length ∧ (s.reading d).lists.length = s.lists.length + 1 := by
  simp [reading, take, renew, make]

/-- A list that was there before a reading is as it was. -/
theorem notesOn_reading (h : n < s.lists.length) (d : Disk) :
    (s.reading d).notesOn n = s.notesOn n := by
  have hne : n ≠ s.renew.current := Nat.ne_of_lt h
  rw [reading, notesOn_take hne]
  exact notesOn_make h []

/-- A reading fails with the fault of a first one, or answers with its contents and a copy of the
notes. -/
theorem parse_cases (s : Parser) (d : Disk) :
    (∃ f, (s.plugin.contents d).outcome = .error f ∧ s.parse d = (.error f, s.reading d)) ∨
    ∃ c, (s.plugin.contents d).outcome = .ok c ∧
      s.parse d = (.ok ⟨c, s.lists.length + 1⟩,
        ((s.reading d).make (s.plugin.contents d).notes).2) := by
  have htake : s.renew.take (s.renew.plugin.contents d) =
      ((s.plugin.contents d).outcome, s.reading d) := by
    refine Prod.ext ?_ rfl
    rw [take, notes_renew]
    rfl
  unfold parse
  dsimp only
  rw [htake]
  cases (s.plugin.contents d).outcome with
  | error f => exact .inl ⟨f, rfl, rfl⟩
  | ok c =>
    refine .inr ⟨c, rfl, ?_⟩
    rw [← notes_reading, ← (s.current_reading d).2]
    rfl

/-- What is seen of an answer to a reading: the contents and the notes on its list, or the fault. -/
def seen : Attempt Parsed × Parser → Attempt (Contents × List Note)
  | (.ok r, s) => .ok (r.contents, s.notesOn r.list)
  | (.error f, _) => .error f

/-- A reading shows what a first one shows, whatever notes were taken before. -/
theorem seen_parse (s : Parser) (d : Disk) : seen (s.parse d) =
    (s.plugin.contents d).outcome.map fun c => (c, (s.plugin.contents d).notes) := by
  rcases s.parse_cases d with ⟨f, hf, hparse⟩ | ⟨c, hc, hparse⟩
  · rw [hparse, hf]
    rfl
  · have hlist : ((s.reading d).make (s.plugin.contents d).notes).1 = s.lists.length + 1 :=
      (s.current_reading d).2
    rw [hparse, hc, seen, ← hlist, notesOn_make_self]
    rfl

/-- A list that was made and is not in use: nothing is added to it any more. -/
structure IsSettled (s : Parser) (n : Nat) : Prop where
  /-- It was made. -/
  lt : n < s.lists.length
  /-- It is not in use. -/
  ne : n ≠ s.current

/-- The list of an answer is settled. -/
theorem isSettled_of_parse {d : Disk} {r : Parsed} (h : (s.parse d).1 = .ok r) :
    (s.parse d).2.IsSettled r.list := by
  obtain ⟨hcurrent, hlength⟩ := s.current_reading d
  rcases s.parse_cases d with ⟨f, -, hparse⟩ | ⟨c, -, hparse⟩
  · rw [hparse] at h
    cases h
  · rw [hparse] at h ⊢
    cases h
    refine ⟨?_, ?_⟩
    · simp [make, hlength]
    · simp [make, hcurrent]

/-- A call is about the same plugin. -/
@[simp] theorem plugin_call (s : Parser) (d : Disk) (c : Call) :
    (s.call d c).plugin = s.plugin := by
  cases c with
  | collect => rfl
  | manifest => rfl
  | parse =>
    rw [call]
    rcases s.parse_cases d with ⟨f, -, hparse⟩ | ⟨c, -, hparse⟩ <;> rw [hparse] <;> rfl

/-- A list that is settled stays so in a call, and nothing is added to it. -/
theorem IsSettled.call (h : s.IsSettled n) (d : Disk) (c : Call) :
    (s.call d c).IsSettled n ∧ (s.call d c).notesOn n = s.notesOn n := by
  -- A call takes its notes on the list that is current, and a settled list is not.
  cases c with
  | collect =>
    refine ⟨⟨?_, h.ne⟩, notesOn_take h.ne _⟩
    simpa [Parser.call, collect, take] using h.lt
  | manifest => exact ⟨h, rfl⟩
  | parse =>
    obtain ⟨hcurrent, hlength⟩ := s.current_reading d
    have hlt : n < (s.reading d).lists.length := hlength ▸ Nat.lt_succ_of_lt h.lt
    have hne : n ≠ (s.reading d).current := hcurrent ▸ Nat.ne_of_lt h.lt
    rw [Parser.call]
    rcases s.parse_cases d with ⟨f, -, hparse⟩ | ⟨c, -, hparse⟩
    · rw [hparse]
      exact ⟨⟨hlt, hne⟩, notesOn_reading h.lt d⟩
    · rw [hparse]
      refine ⟨⟨?_, hne⟩, (notesOn_make hlt _).trans (notesOn_reading h.lt d)⟩
      simpa [make] using Nat.lt_succ_of_lt hlt

/-- Calls are about the same plugin. -/
theorem plugin_after (s : Parser) (d : Disk) (calls : List Call) :
    (s.after d calls).plugin = s.plugin := by
  induction calls generalizing s with
  | nil => rfl
  | cons c r ih => exact (ih (s.call d c)).trans (s.plugin_call d c)

/-- Nothing is added to a list that is settled, in any number of calls. -/
theorem IsSettled.notesOn_after (h : s.IsSettled n) (d : Disk) (calls : List Call) :
    (s.after d calls).notesOn n = s.notesOn n := by
  induction calls generalizing s with
  | nil => rfl
  | cons c r ih =>
    obtain ⟨hsettled, hnotes⟩ := h.call d c
    exact (ih hsettled).trans hnotes

end Parser

/-- Reading a plugin is repeatable. After any calls on a new parser, those that failed among them, a
reading shows what it shows at first: the same contents with the same notes in the same order, or
the same fault. And the list of notes that came with an answer stays as it is, whatever calls
follow. -/
theorem parsing_is_repeatable (p : Plugin) (d : Disk) (calls : List Parser.Call) :
    Parser.seen (((Parser.fresh p).after d calls).parse d) =
      Parser.seen ((Parser.fresh p).parse d) ∧
    ∀ r s, ((Parser.fresh p).after d calls).parse d = (.ok r, s) →
      ∀ later, (s.after d later).notesOn r.list = s.notesOn r.list := by
  constructor
  · rw [Parser.seen_parse, Parser.seen_parse, Parser.plugin_after]
  · intro r s hparse later
    have hsettled : s.IsSettled r.list := by
      have := Parser.isSettled_of_parse (congrArg Prod.fst hparse)
      rwa [hparse] at this
    exact hsettled.notesOn_after d later

/-- A plugin with a directory that is passed over, a link, and a configuration that is not JSON. -/
def littered : Disk where
  root := .directory [("p", .directory
    [(".mcp.json", .file "\x7b".toUTF8.toList),
    ("link", .link "elsewhere"),
    ("node_modules", .directory []),
    ("plugin.json", .file "\x7b\"name\":\"x\"\x7d".toUTF8.toList)])]
  current := []

/-- The littered plugin, with the default settings. -/
def litteredPlugin : Plugin := ⟨["p"], {}, 1024 * 1024⟩

/-- A reading of the littered plugin takes three notes. -/
theorem notes_littered : (Parser.seen ((Parser.fresh litteredPlugin).parse littered)).map
    (fun c => c.2.map Note.message) = .ok ["Skipped directory (not scanned): node_modules",
      "Skipping symlink: link",
      "Invalid JSON in .mcp.json: Expecting property name enclosed in double quotes: " ++
        "line 1 column 2 (char 1)"] := by
  decide +kernel

/-- The littered plugin is read after its files were listed, which takes notes too, and it was read
before: there are the three notes of a first reading, and three they are when it is read again and
its files are listed again. -/
theorem parsing_littered_is_repeatable :
    Parser.open? littered "/p" {} = .ok (Parser.fresh litteredPlugin) ∧
    ∃ r s, ((Parser.fresh litteredPlugin).after littered
        [.collect, .manifest, .parse, .collect]).parse littered = (.ok r, s) ∧
      (s.notesOn r.list).length = 3 ∧
      ((s.after littered [.parse, .collect]).notesOn r.list).length = 3 := by
  have hopen : Parser.open? littered "/p" {} = .ok (Parser.fresh litteredPlugin) := by
    have hplain : littered.plainNames "/p" = .ok ["p"] := by decide +kernel
    unfold Parser.open? Plugin.open?
    rw [hplain]
    rfl
  refine ⟨hopen, ?_⟩
  obtain ⟨hsame, hsettled⟩ := parsing_is_repeatable litteredPlugin littered
    [.collect, .manifest, .parse, .collect]
  obtain ⟨c, hseen, hmessages⟩ := Attempt.map_eq_ok_iff.mp notes_littered
  rw [hseen] at hsame
  -- What the second reading gives is known by the theorem, so it is not computed.
  generalize ((Parser.fresh litteredPlugin).after littered
    [.collect, .manifest, .parse, .collect]).parse littered = answer at hsame hsettled ⊢
  obtain ⟨outcome, s⟩ := answer
  cases outcome with
  | error f => cases hsame
  | ok r =>
    have hnotes : (s.notesOn r.list).length = 3 := by
      have hlist : s.notesOn r.list = c.2 := congrArg Prod.snd (Except.ok.inj hsame)
      rw [hlist]
      simpa using congrArg List.length hmessages
    refine ⟨r, s, rfl, hnotes, ?_⟩
    rw [hsettled r s rfl]
    exact hnotes

/-- An analysis sees what a parser reads that was opened for it, whatever calls the parser has
answered before. -/
theorem Analyzer.survey_eq_parse_after (a : Analyzer) (d : Disk) (path : Text)
    (calls : List Parser.Call) : a.survey d path =
    Parser.open? d path a.config.files >>= fun s =>
      Parser.seen ((s.after d calls).parse d) >>= fun c =>
        (a.scan c.1 c.2).map fun found => (c.1, found.1, found.2) := by
  rw [survey_eq, Parser.open?]
  cases Plugin.open? d path a.config.files with
  | error f => rfl
  | ok p =>
    have hseen : Parser.seen (((Parser.fresh p).after d calls).parse d) =
        (p.contents d).outcome.map fun c => (c, (p.contents d).notes) := by
      rw [Parser.seen_parse, Parser.plugin_after]
      rfl
    change _ = Parser.seen (((Parser.fresh p).after d calls).parse d) >>= _
    rw [hseen]
    change (p.contents d).outcome >>= _ = _
    cases (p.contents d).outcome <;> rfl

end SurfaceAudit
