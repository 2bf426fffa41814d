import SurfaceAudit.Proofs.Growth

/-!
# The seven scanners

Each scanner leaves its mark on what it finds (`Scanner.Finds`): the source, the file, an impact
that a rule or an author gives, and an order. The tasks for a plugin are those of a list of scans
that does not depend on the settings, without the scans of the scanners that are off
(`ScanTask.ofContents_eq`), and each of them finds what its scanner may find
(`Contents.finds_of_mem_scans`).
-/

namespace SurfaceAudit

namespace Evidence

/-- The evidence is of a source and on a file, and a rule gives its impact. -/
structure IsRuled (source : Source) (file : Text) (e : Evidence) : Prop where
  /-- It is from this source. -/
  source_eq : e.source = source
  /-- It is about this file. -/
  file_eq : e.file = file
  /-- Its impact is one of those that rules can have. -/
  exists_template : ∃ t : Template, e.impact = t.impact

/-- The evidence is that of a list of surfaces in a file: those that are not listed are out, and the
others are not restricted. -/
structure IsDeclared (declared : List Text) (file : Text) (e : Evidence) : Prop where
  /-- It is from the list. -/
  source_eq : e.source = .declaration
  /-- It is about the file of the list. -/
  file_eq : e.file = file
  /-- It rules out what is not listed, and restricts nothing else. -/
  on_eq : ∀ t, e.impact.on t = if t.name ∈ declared then .compatible else .incompatible

/-- Each piece of the evidence has a line, and the lines are in an order. -/
structure Numbered (R : Int → Int → Prop) (es : List Evidence) : Prop where
  /-- Each piece has a line. -/
  exists_line : ∀ e ∈ es, ∃ n, e.line = some n
  /-- The lines are in the order. -/
  pairwise : es.Pairwise fun e f => ∀ m n, e.line = some m → f.line = some n → R m n

/-- The evidence has distinct signals. -/
def HasDistinctSignals (es : List Evidence) : Prop := (es.map (·.signal)).Nodup

variable {es fs : List Evidence}

/-- Part of numbered evidence is numbered in the same way. -/
theorem Numbered.sublist {R : Int → Int → Prop} (h : Numbered R fs) (hs : es.Sublist fs) :
    Numbered R es :=
  ⟨fun e he => h.exists_line e (hs.subset he), h.pairwise.sublist hs⟩

/-- Part of evidence with distinct signals has distinct signals. -/
theorem HasDistinctSignals.sublist (h : HasDistinctSignals fs) (hs : es.Sublist fs) :
    HasDistinctSignals es :=
  List.Nodup.sublist (hs.map _) h

end Evidence

/-- A scanner. -/
inductive Scanner where
  /-- For the surfaces that the manifest lists. -/
  | declaration
  /-- For the fields before documents. -/
  | frontmatter
  /-- For the blocks of commands in documents. -/
  | codeBlock
  /-- For the script files. -/
  | script
  /-- For the imports in scripts. -/
  | scriptImport
  /-- For the hooks. -/
  | hook
  /-- For the servers. -/
  | mcp
  deriving DecidableEq

namespace Scanner

/-- All scanners. -/
def all : List Scanner :=
  [.declaration, .frontmatter, .codeBlock, .script, .scriptImport, .hook, .mcp]

/-- Every scanner is in the list of all. -/
theorem mem_all (sc : Scanner) : sc ∈ all := by cases sc <;> decide

/-- The name of a scanner in the labels of its tasks. -/
def name : Scanner → Text
  | .declaration => "declaration"
  | .frontmatter => "frontmatter"
  | .codeBlock => "code_block"
  | .script => "script"
  | .scriptImport => "script_import"
  | .hook => "hook"
  | .mcp => "mcp"

/-- The setting that turns a scanner on. -/
def setting (s : ScannerSettings) : Scanner → Value
  | .declaration => s.declaration
  | .frontmatter => s.frontmatter
  | .codeBlock => s.codeBlock
  | .script => s.script
  | .scriptImport => s.scriptImport
  | .hook => s.hook
  | .mcp => s.mcp

/-- The scanner is on. -/
def isOn (s : ScannerSettings) (sc : Scanner) : Bool := (sc.setting s).isTrue

/-- The source of the evidence that is a scanner's own. -/
def source : Scanner → Source
  | .declaration => .declaration
  | .frontmatter => .frontmatter
  | .codeBlock => .codeBlock
  | .script => .script
  | .scriptImport => .scriptImport
  | .hook => .hook
  | .mcp => .mcpServer

/-- What a scanner may find in a file. -/
inductive Finds (file : Text) : Scanner → List Evidence → Prop where
  /-- At most one list of surfaces. -/
  | declaration {surfaces : List Evidence} (hlen : surfaces.length ≤ 1)
    (h : ∀ e ∈ surfaces, ∃ declared, e.IsDeclared declared file) : Finds file .declaration surfaces
  /-- Tools with distinct signals, and then at most one list of surfaces. -/
  | frontmatter {tools surfaces : List Evidence} (htools : ∀ e ∈ tools, e.IsRuled .frontmatter file)
    (hsignals : Evidence.HasDistinctSignals tools) (hlen : surfaces.length ≤ 1)
    (h : ∀ e ∈ surfaces, ∃ declared, e.IsDeclared declared file) :
    Finds file .frontmatter (tools ++ surfaces)
  /-- Commands on lines that increase. -/
  | codeBlock {commands : List Evidence} (h : ∀ e ∈ commands, e.IsRuled .codeBlock file)
    (hlines : Evidence.Numbered (· < ·) commands) : Finds file .codeBlock commands
  /-- At most the file itself. -/
  | script {files : List Evidence} (hlen : files.length ≤ 1)
    (h : ∀ e ∈ files, e.IsRuled .script file) : Finds file .script files
  /-- Imports with distinct signals on lines that do not decrease. -/
  | scriptImport {imports : List Evidence} (h : ∀ e ∈ imports, e.IsRuled .scriptImport file)
    (hlines : Evidence.Numbered (· ≤ ·) imports) (hsignals : Evidence.HasDistinctSignals imports) :
    Finds file .scriptImport imports
  /-- Hooks. -/
  | hook {hooks : List Evidence} (h : ∀ e ∈ hooks, e.IsRuled .hook file) : Finds file .hook hooks
  /-- Servers. -/
  | mcp {servers : List Evidence} (h : ∀ e ∈ servers, e.IsRuled .mcpServer file) :
    Finds file .mcp servers

/-- A scanner may find nothing. -/
theorem Finds.nil (file : Text) (sc : Scanner) : sc.Finds file [] := by
  have hnone {P : Evidence → Prop} : ∀ e ∈ ([] : List Evidence), P e := fun e he => nomatch he
  cases sc with
  | declaration => exact .declaration (Nat.zero_le 1) hnone
  | frontmatter => exact @Finds.frontmatter file [] [] hnone List.nodup_nil (Nat.zero_le 1) hnone
  | codeBlock => exact .codeBlock hnone ⟨hnone, .nil⟩
  | script => exact .script (Nat.zero_le 1) hnone
  | scriptImport => exact .scriptImport hnone ⟨hnone, .nil⟩ List.nodup_nil
  | hook => exact .hook hnone
  | mcp => exact .mcp hnone

variable {file : Text} {sc : Scanner} {es fs : List Evidence} {e : Evidence}

/-- What is left of what a scanner may find, it may find too. -/
theorem Finds.sublist (h : sc.Finds file fs) (hs : es.Sublist fs) : sc.Finds file es := by
  have hkept {P : Evidence → Prop} {es fs : List Evidence} (hs : es.Sublist fs)
      (h : ∀ e ∈ fs, P e) : ∀ e ∈ es, P e := fun e he => h e (hs.subset he)
  cases h with
  | declaration hlen h => exact .declaration (hs.length_le.trans hlen) (hkept hs h)
  | frontmatter htools hsignals hlen h =>
    obtain ⟨tools, surfaces, rfl, ht, hr⟩ := List.sublist_append_iff.mp hs
    exact .frontmatter (hkept ht htools) (hsignals.sublist ht) (hr.length_le.trans hlen)
      (hkept hr h)
  | codeBlock h hlines => exact .codeBlock (hkept hs h) (hlines.sublist hs)
  | script hlen h => exact .script (hs.length_le.trans hlen) (hkept hs h)
  | scriptImport h hlines hsignals =>
    exact .scriptImport (hkept hs h) (hlines.sublist hs) (hsignals.sublist hs)
  | hook h => exact .hook (hkept hs h)
  | mcp h => exact .mcp (hkept hs h)

/-- What a scanner finds is of its own source and has the impact of a rule, or it is a list of
surfaces. -/
theorem Finds.of_mem (h : sc.Finds file es) (he : e ∈ es) :
    e.IsRuled sc.source file ∨
      (sc = .declaration ∨ sc = .frontmatter) ∧ ∃ declared, e.IsDeclared declared file := by
  cases h with
  | declaration _ h => exact .inr ⟨.inl rfl, h e he⟩
  | frontmatter htools _ _ h =>
    rcases List.mem_append.mp he with he | he
    · exact .inl (htools e he)
    · exact .inr ⟨.inr rfl, h e he⟩
  | codeBlock h _ => exact .inl (h e he)
  | script _ h => exact .inl (h e he)
  | scriptImport h _ _ => exact .inl (h e he)
  | hook h => exact .inl (h e he)
  | mcp h => exact .inl (h e he)

/-- What a scanner finds in a file is on that file. -/
theorem Finds.file_eq (h : sc.Finds file es) (he : e ∈ es) : e.file = file := by
  rcases h.of_mem he with hr | ⟨-, declared, hd⟩
  · exact hr.file_eq
  · exact hd.file_eq

end Scanner

namespace RuleTables

variable {rules : RuleTables} {t : Text} {k : Classification}

/-- The impact of a command is that of a rule. -/
theorem exists_template_of_classifyCommand (h : rules.classifyCommand t = some k) :
    ∃ t : Template, k.impact = t.impact := by
  unfold classifyCommand at h
  split at h
  · cases h
  · obtain ⟨r, -, rfl⟩ := Option.map_eq_some_iff.mp h
    exact ⟨r.template, rfl⟩

/-- The impact of a program is that of a rule. -/
theorem exists_template_of_classifyBinary (h : rules.classifyBinary t = some k) :
    ∃ t : Template, k.impact = t.impact := by
  obtain ⟨r, -, rfl⟩ := Option.map_eq_some_iff.mp h
  exact ⟨r.template, rfl⟩

end RuleTables

namespace Declaration

variable {rules : RuleTables} {file : Text}

/-- Each text once is without repetition. -/
theorem nodup_distinct (ts : List Text) : (distinct ts).Nodup := by
  -- By induction on the texts that are left, for whatever was seen so far.
  have hfold (seen : List Text) (h : seen.Nodup) : (ts.foldl
      (fun seen t => if seen.contains t then seen else seen ++ [t]) seen).Nodup := by
    induction ts generalizing seen with
    | nil => exact h
    | cons t r ih =>
      rw [List.foldl_cons]
      apply ih
      split
      · exact h
      · rename_i hnew
        rw [List.contains_iff_mem] at hnew
        exact List.nodup_append.mpr ⟨h, List.nodup_singleton t, fun u hu v hv heq => by
          rw [List.mem_singleton.mp hv] at heq
          exact hnew (heq ▸ hu)⟩
  exact hfold [] List.nodup_nil

/-- The evidence of a tool is that of a rule, and its signal tells the tool. -/
theorem of_toolEvidence? {tool : Text} {e : Evidence} (h : toolEvidence? rules file tool = some e) :
    e.IsRuled .frontmatter file ∧ e.signal = ("allowed-tools: " : Text) ++ tool := by
  obtain ⟨r, -, rfl⟩ := Option.map_eq_some_iff.mp h
  exact ⟨⟨rfl, rfl, r.template, rfl⟩, rfl⟩

/-- The evidence of tools is that of rules, with distinct signals. -/
theorem of_toolsEvidence {allowed : Value} {es : List Evidence}
    (h : toolsEvidence rules file allowed = .ok es) :
    (∀ e ∈ es, e.IsRuled .frontmatter file) ∧ Evidence.HasDistinctSignals es := by
  obtain ⟨names, -, rfl⟩ := Attempt.map_eq_ok_iff.mp h
  constructor
  · intro e he
    obtain ⟨tool, -, he⟩ := List.mem_filterMap.mp he
    exact (of_toolEvidence? he).1
  · unfold Evidence.HasDistinctSignals List.Nodup
    rw [List.pairwise_map, List.pairwise_filterMap]
    -- Tools with the same signal are the same, since the signals have one beginning.
    refine (nodup_distinct names).imp fun {tool tool'} hne e he e' he' heq => hne ?_
    rw [(of_toolEvidence? he).2, (of_toolEvidence? he').2] at heq
    exact List.append_cancel_left heq

/-- What a list of surfaces comes to: nothing if it is no list or leaves no surface out, and else
evidence against the surfaces that it leaves out. -/
theorem targetsEvidence?_cases {targets : Value} {found : Option Evidence}
    (h : targetsEvidence? file targets = .ok found) :
    (targets.items? = none ∧ found = none) ∨
      ∃ items declared, targets.items? = some items ∧ items.mapM Value.shown = .ok declared ∧
        (((∀ t : Target, t.name ∈ declared) ∧ found = none) ∨
          (∃ t : Target, t.name ∉ declared) ∧
            ∃ e, found = some e ∧ e.IsDeclared declared file) := by
  unfold targetsEvidence? at h
  split at h
  · rename_i hitems
    cases h
    exact .inl ⟨hitems, rfl⟩
  · rename_i items hitems
    obtain ⟨declared, hd, h⟩ := Attempt.bind_eq_ok_iff.mp h
    -- The list is compared with all surfaces, so that one is missing exactly if it is not in it.
    have hmissing (t : Target) :
        t ∈ (Target.all.filter fun t => !declared.contains t.name) ↔ t.name ∉ declared := by
      simp [List.mem_filter, Target.mem_all]
    refine .inr ⟨items, declared, hitems, hd, ?_⟩
    dsimp only at h
    split at h
    · rename_i hnone
      cases h
      rw [List.isEmpty_iff, List.eq_nil_iff_forall_not_mem] at hnone
      exact .inl ⟨fun t => not_not.mp fun ht => hnone t ((hmissing t).mpr ht), rfl⟩
    · rename_i hsome
      cases h
      rw [List.isEmpty_iff] at hsome
      obtain ⟨t, ht⟩ := List.exists_mem_of_ne_nil _ hsome
      refine .inr ⟨⟨t, (hmissing t).mp ht⟩, _, rfl, rfl, rfl, fun t => ?_⟩
      rw [Impact.on_of]
      by_cases ht : t.name ∈ declared
      · rw [if_pos ht, if_neg (by rw [List.contains_iff_mem, hmissing]; exact not_not.mpr ht)]
      · rw [if_neg ht, if_pos (by rw [List.contains_iff_mem, hmissing]; exact ht)]

/-- A list of surfaces is at most one piece of evidence, which is declared. -/
theorem of_targetsEvidence? {targets : Value} {found : Option Evidence}
    (h : targetsEvidence? file targets = .ok found) :
    found.toList.length ≤ 1 ∧ ∀ e ∈ found.toList, ∃ declared, e.IsDeclared declared file := by
  rcases targetsEvidence?_cases h with ⟨-, rfl⟩ |
    ⟨items, declared, -, -, ⟨-, rfl⟩ | ⟨-, e, rfl, he⟩⟩
  · simp
  · simp
  · simpa using ⟨declared, he⟩

/-- What the scanner for fields finds. -/
theorem finds_fieldsEvidence {fields : Value} {es : List Evidence}
    (h : fieldsEvidence rules file fields = .ok es) : Scanner.frontmatter.Finds file es := by
  unfold fieldsEvidence at h
  split at h
  · cases h
    exact .nil file _
  · rename_i entries _
    -- The tools come first, and their evidence is that of rules if there are any.
    obtain ⟨tools, ⟨hruled, hsignals⟩, h⟩ : ∃ tools, ((∀ e ∈ tools, e.IsRuled .frontmatter file) ∧
        Evidence.HasDistinctSignals tools) ∧
        (targetsEvidence? file (Value.field entries "targets") >>= fun targets =>
          .ok (tools ++ targets.toList)) = .ok es := by
      dsimp only at h
      split at h
      · exact ⟨[], ⟨fun e he => (nomatch he), List.nodup_nil⟩, h⟩
      · obtain ⟨tools, htools, h⟩ := Attempt.bind_eq_ok_iff.mp h
        exact ⟨tools, of_toolsEvidence htools, h⟩
    obtain ⟨targets, htargets, h⟩ := Attempt.bind_eq_ok_iff.mp h
    cases h
    obtain ⟨hlen, hdeclared⟩ := of_targetsEvidence? htargets
    exact .frontmatter hruled hsignals hlen hdeclared

/-- What the scanner for the manifest finds. -/
theorem finds_manifestEvidence {manifest : Value} {es : List Evidence}
    (h : manifestEvidence file manifest = .ok es) : Scanner.declaration.Finds file es := by
  unfold manifestEvidence at h
  split at h
  · cases h
    exact .nil file _
  · obtain ⟨targets, htargets, h⟩ := Attempt.bind_eq_ok_iff.mp h
    cases h
    obtain ⟨hlen, hdeclared⟩ := of_targetsEvidence? htargets
    exact .declaration hlen hdeclared

end Declaration

namespace Markdown

/-- The numbers of the lines of blocks increase from the first one on. -/
theorem pairwise_blockLinesFrom (number : Nat) (inside : Option Fence) (lines : List Text) :
    (∀ l ∈ blockLinesFrom number inside lines, number ≤ l.number) ∧
      (blockLinesFrom number inside lines).Pairwise fun l l' => l.number < l'.number := by
  induction lines generalizing number inside with
  | nil => exact ⟨fun l hl => (nomatch hl), .nil⟩
  | cons line r ih =>
    -- What comes later has the number of a later line, whether a fence is open or not.
    have hlater (inside : Option Fence) :
        ∀ l ∈ blockLinesFrom (number + 1) inside r, number ≤ l.number :=
      fun l hl => Nat.le_of_succ_le ((ih (number + 1) inside).1 l hl)
    unfold blockLinesFrom
    split
    · exact ⟨hlater _, (ih _ _).2⟩
    · split
      · exact ⟨hlater _, (ih _ _).2⟩
      · rename_i f _
        constructor
        · intro l hl
          rcases List.mem_cons.mp hl with rfl | hl
          · exact Nat.le_refl number
          · exact hlater _ l hl
        · exact List.pairwise_cons.mpr ⟨(ih (number + 1) (some f)).1, (ih _ _).2⟩

/-- The evidence of a line is that of a rule, and is on the line. -/
theorem of_lineEvidence? {rules : RuleTables} {file : Text} {l : BlockLine} {e : Evidence}
    (h : lineEvidence? rules file l = some e) :
    e.IsRuled .codeBlock file ∧ e.line = some (l.number : Int) := by
  unfold lineEvidence? at h
  split at h
  · obtain ⟨k, hk, rfl⟩ := Option.map_eq_some_iff.mp h
    exact ⟨⟨rfl, rfl, RuleTables.exists_template_of_classifyCommand hk⟩, rfl⟩
  · cases h

/-- What the scanner for commands finds. -/
theorem finds_commandEvidence (rules : RuleTables) (file content : Text) :
    Scanner.codeBlock.Finds file (commandEvidence rules file content) := by
  unfold commandEvidence
  refine .codeBlock (fun e he => ?_) ⟨fun e he => ?_, ?_⟩
  · obtain ⟨l, -, he⟩ := List.mem_filterMap.mp he
    exact (of_lineEvidence? he).1
  · obtain ⟨l, -, he⟩ := List.mem_filterMap.mp he
    exact ⟨_, (of_lineEvidence? he).2⟩
  · rw [List.pairwise_filterMap]
    refine (pairwise_blockLinesFrom 1 none content.lines).2.imp ?_
    intro l l' hlt e he e' he' m n hm hn
    have hle := (of_lineEvidence? he).2.symm.trans hm
    have hle' := (of_lineEvidence? he').2.symm.trans hn
    cases hle
    cases hle'
    exact Int.ofNat_lt.mpr hlt

end Markdown

namespace Script

/-- Names with the lines they were first seen on: each name once, and the lines in order, none of
them after a number. -/
structure IsTally (number : Nat) (seen : List (Text × Nat)) : Prop where
  /-- Each name is there once. -/
  once : (seen.map (·.1)).Nodup
  /-- The lines are in order. -/
  ordered : seen.Pairwise fun x y => x.2 ≤ y.2
  /-- No line is after the number. -/
  le_number : ∀ x ∈ seen, x.2 ≤ number

namespace IsTally

variable {number : Nat} {seen : List (Text × Nat)}

/-- A tally up to a number is one up to a larger number. -/
theorem mono {number' : Nat} (h : IsTally number seen) (hn : number ≤ number') :
    IsTally number' seen :=
  ⟨h.once, h.ordered, fun x hx => (h.le_number x hx).trans hn⟩

/-- A name that was not seen yet goes to the end. -/
theorem concat (h : IsTally number seen) {name : Text} (hnew : ∀ x ∈ seen, x.1 ≠ name) :
    IsTally number (seen ++ [(name, number)]) := by
  refine ⟨?_, ?_, fun x hx => ?_⟩
  · rw [List.map_append, List.map_singleton, List.nodup_append]
    refine ⟨h.once, List.nodup_singleton name, fun t ht u hu => ?_⟩
    obtain ⟨x, hx, rfl⟩ := List.mem_map.mp ht
    rw [List.mem_singleton.mp hu]
    exact hnew x hx
  · rw [List.pairwise_append]
    refine ⟨h.ordered, List.pairwise_singleton _ _, fun x hx y hy => ?_⟩
    rw [List.mem_singleton.mp hy]
    exact h.le_number x hx
  · rcases List.mem_append.mp hx with hx | hx
    · exact h.le_number x hx
    · rw [List.mem_singleton.mp hx]

/-- The names of a line keep the tally. -/
theorem noteAll (h : IsTally number seen) (names : List Text) :
    IsTally number (noteAll number seen names) := by
  unfold Script.noteAll
  induction names generalizing seen with
  | nil => exact h
  | cons name r ih =>
    rw [List.foldl_cons]
    apply ih
    split
    · exact h
    · rename_i hnew
      apply h.concat
      intro x hx heq
      exact hnew (List.any_eq_true.mpr ⟨x, hx, beq_iff_eq.mpr heq⟩)

end IsTally

/-- The lines of a text keep the tally. -/
theorem exists_isTally_firstSeenFrom (names : Text → List Text) {number : Nat}
    {seen : List (Text × Nat)} (lines : List Text) (h : IsTally number seen) :
    ∃ last, IsTally last (firstSeenFrom names number seen lines) := by
  induction lines generalizing number seen with
  | nil => exact ⟨number, h⟩
  | cons line r ih => exact ih ((h.noteAll (names line)).mono (Nat.le_succ number))

/-- What the scanner for imports finds under the rule for a language. -/
theorem finds_importEvidence (rules : RuleTables) (language : Text) (names : Text → List Text)
    (detail : Text → Text) (file content : Text) :
    Scanner.scriptImport.Finds file (importEvidence rules language names detail file content) := by
  unfold importEvidence
  split
  · exact .nil file _
  · rename_i r _
    have hempty : IsTally 1 [] :=
      ⟨List.nodup_nil, .nil, fun x hx => (nomatch hx)⟩
    -- Names first seen line by line are a tally at the end, and the evidence follows them.
    obtain ⟨last, htally⟩ := exists_isTally_firstSeenFrom names content.lines hempty
    refine .scriptImport (fun e he => ?_) ⟨fun e he => ?_, ?_⟩ ?_
    · obtain ⟨x, -, rfl⟩ := List.mem_map.mp he
      exact ⟨rfl, rfl, r.template, rfl⟩
    · obtain ⟨x, -, rfl⟩ := List.mem_map.mp he
      exact ⟨_, rfl⟩
    · rw [List.pairwise_map]
      refine htally.ordered.imp ?_
      intro x y hle m n hm hn
      cases hm
      cases hn
      exact Int.ofNat_le.mpr hle
    · -- The signals have one beginning, and go on with the names.
      unfold Evidence.HasDistinctSignals List.Nodup
      have honce : (firstSeen names content).Pairwise fun x y => x.1 ≠ y.1 :=
        List.pairwise_map.mp htally.once
      rw [List.map_map, List.pairwise_map]
      exact honce.imp fun hne heq => hne (List.append_cancel_left heq)

/-- What the scanner for imports finds. -/
theorem finds_contentEvidence (rules : RuleTables) (file content : Text) :
    Scanner.scriptImport.Finds file (contentEvidence rules file content) := by
  unfold contentEvidence
  simp only
  split
  · exact finds_importEvidence rules _ _ _ file content
  · split
    · exact finds_importEvidence rules _ _ _ file content
    · exact .nil file _

/-- What the scanner for script files finds. -/
theorem finds_fileEvidence? (rules : RuleTables) (file : Text) :
    Scanner.script.Finds file (fileEvidence? rules file).toList := by
  refine .script ?_ fun e he => ?_
  · cases fileEvidence? rules file <;> simp
  · obtain ⟨r, -, rfl⟩ := Option.map_eq_some_iff.mp (Option.mem_toList.mp he)
    exact ⟨rfl, rfl, r.template, rfl⟩

end Script

namespace Hooks

/-- The evidence of a handler is that of a rule. -/
theorem isRuled_of_handlerEvidence? {rules : RuleTables} {file event : Text}
    {handler : List (Value × Value)} {e : Evidence}
    (h : handlerEvidence? rules file event handler = some e) : e.IsRuled .hook file := by
  obtain ⟨c, -, h⟩ := Option.bind_eq_some_iff.mp h
  obtain ⟨k, hk, h⟩ := Option.bind_eq_some_iff.mp h
  cases h
  exact ⟨rfl, rfl, RuleTables.exists_template_of_classifyCommand hk⟩

/-- What the scanner for hooks finds. -/
theorem finds_evidence {rules : RuleTables} {file : Text} {config : Value} {es : List Evidence}
    (h : evidence rules file config = .ok es) : Scanner.hook.Finds file es := by
  obtain ⟨found, hfound, h⟩ := Attempt.bind_eq_ok_iff.mp h
  cases h
  refine .hook fun e he => ?_
  obtain ⟨o, ho, rfl⟩ := List.mem_filterMap.mp he
  obtain ⟨⟨name, handler⟩, -, hx⟩ := (Attempt.mem_iff_of_mapM_eq_ok hfound).mp ho
  obtain ⟨event, -, hx⟩ := Attempt.bind_eq_ok_iff.mp hx
  exact isRuled_of_handlerEvidence? (Except.ok.inj hx)

end Hooks

namespace Servers

/-- The evidence of a server is that of a rule. -/
theorem isRuled_of_serverEvidence? {rules : RuleTables} {file : Text} {name server : Value}
    {e : Evidence} (h : serverEvidence? rules file name server = .ok (some e)) :
    e.IsRuled .mcpServer file := by
  unfold serverEvidence? at h
  split at h
  · cases h
  · split at h
    · cases h
    · rename_i k hk
      obtain ⟨launch, -, h⟩ := Attempt.bind_eq_ok_iff.mp h
      obtain ⟨shown, -, h⟩ := Attempt.bind_eq_ok_iff.mp h
      cases h
      exact ⟨rfl, rfl, RuleTables.exists_template_of_classifyBinary hk⟩

/-- What the scanner for servers finds. -/
theorem finds_evidence {rules : RuleTables} {file : Text} {config : Value} {es : List Evidence}
    (h : evidence rules file config = .ok es) : Scanner.mcp.Finds file es := by
  obtain ⟨found, hfound, h⟩ := Attempt.bind_eq_ok_iff.mp h
  cases h
  refine .mcp fun e he => ?_
  obtain ⟨o, ho, rfl⟩ := List.mem_filterMap.mp he
  obtain ⟨⟨name, server⟩, -, hx⟩ := (Attempt.mem_iff_of_mapM_eq_ok hfound).mp ho
  exact isRuled_of_serverEvidence? hx

end Servers

/-- One scanner on one file, whether it is on or not. -/
structure Scan where
  /-- The scanner. -/
  scanner : Scanner
  /-- The path of the file. -/
  file : Text
  /-- The evidence that the scanner finds. -/
  evidence : Attempt (List Evidence)

namespace Scan

/-- The task for a scan. -/
def task (x : Scan) : ScanTask := ⟨x.scanner.name ++ ":" ++ x.file, x.evidence⟩

/-- The tasks of a scanner that may be on. -/
theorem ifOn_eq (s : ScannerSettings) (x : Scan) :
    ScanTask.ifOn (x.scanner.setting s) x.scanner.name x.file x.evidence =
      ([x].filter (·.scanner.isOn s)).map task := by
  unfold ScanTask.ifOn
  rw [List.filter_cons]
  change (if x.scanner.isOn s = true then [x.task] else []) = _
  split <;> rfl

end Scan

/-- The scan of a manifest. -/
def Manifest.scan (m : Manifest) : Scan :=
  ⟨.declaration, m.path, Declaration.manifestEvidence m.path m.raw⟩

/-- The scans of a file. -/
def PluginFile.scans (rules : RuleTables) (f : PluginFile) : List Scan :=
  match f.kind with
  | .markdown =>
    match f.content with
    | some content =>
      [⟨.codeBlock, f.path, .ok (Markdown.commandEvidence rules f.path content)⟩,
        ⟨.frontmatter, f.path, Declaration.fieldsEvidence rules f.path f.fields⟩]
    | none => []
  | .script =>
    ⟨.script, f.path, .ok (Script.fileEvidence? rules f.path).toList⟩ ::
      match f.content with
      | some content => [⟨.scriptImport, f.path, .ok (Script.contentEvidence rules f.path content)⟩]
      | none => []
  | .hooks =>
    if f.data.entries?.isSome then [⟨.hook, f.path, Hooks.evidence rules f.path f.data⟩] else []
  | .servers =>
    if f.data.entries?.isSome then [⟨.mcp, f.path, Servers.evidence rules f.path f.data⟩] else []
  | .other => []

/-- The scans of a plugin: that of the manifest, and then those of the files. -/
def Contents.scans (rules : RuleTables) (c : Contents) : List Scan :=
  c.manifest.scan :: c.files.flatMap (·.scans rules)

namespace ScanTask

/-- The tasks for a configuration are there if it is an object. -/
theorem tasks_ofData (data : Value) (note : Note) (tasks : List ScanTask) :
    (ofData data note tasks).1 = if data.entries?.isSome then tasks else [] := by
  unfold ofData
  cases data with
  | null => rfl
  | _ => simp only [Value.isNull, Bool.false_eq_true, if_false]; split <;> rfl

/-- The tasks for a manifest are those of its scan, if the scanner is on. -/
theorem ofManifest_eq (s : ScannerSettings) (m : Manifest) :
    ofManifest s m = ([m.scan].filter (·.scanner.isOn s)).map Scan.task :=
  Scan.ifOn_eq s m.scan

/-- The tasks for a file are those of its scans whose scanners are on. -/
theorem ofFile_eq (s : ScannerSettings) (rules : RuleTables) (f : PluginFile) :
    (ofFile s rules f).1 = ((f.scans rules).filter (·.scanner.isOn s)).map Scan.task := by
  unfold ofFile PluginFile.scans
  -- The scans of a kind are filtered one by one, as each of them is made only if its scanner is on.
  cases f.kind with
  | markdown =>
    cases f.content with
    | none => rfl
    | some content =>
      dsimp only
      rw [← List.singleton_append, List.filter_append, List.map_append, ← Scan.ifOn_eq,
        ← Scan.ifOn_eq]
      rfl
  | script =>
    dsimp only
    rw [← List.singleton_append, List.filter_append, List.map_append, ← Scan.ifOn_eq]
    unfold ofScript
    cases f.content with
    | none => rfl
    | some content =>
      dsimp only
      rw [← Scan.ifOn_eq]
      rfl
  | hooks =>
    dsimp only
    rw [tasks_ofData]
    split
    · exact Scan.ifOn_eq s ⟨.hook, f.path, Hooks.evidence rules f.path f.data⟩
    · rfl
  | servers =>
    dsimp only
    rw [tasks_ofData]
    split
    · exact Scan.ifOn_eq s ⟨.mcp, f.path, Servers.evidence rules f.path f.data⟩
    · rfl
  | other => rfl

/-- The tasks for a plugin are those of its scans whose scanners are on. -/
theorem ofContents_eq (s : ScannerSettings) (rules : RuleTables) (c : Contents) :
    (ofContents s rules c).1 = ((c.scans rules).filter (·.scanner.isOn s)).map Scan.task := by
  have hfiles : (c.files.map (ofFile s rules)).flatMap (·.1) =
      ((c.files.flatMap (·.scans rules)).filter (·.scanner.isOn s)).map Scan.task := by
    rw [List.filter_flatMap, List.map_flatMap, List.flatMap_map]
    simp only [ofFile_eq]
  unfold Contents.scans
  rw [← List.singleton_append, List.filter_append, List.map_append, ← ofManifest_eq, ← hfiles]
  rfl

end ScanTask

/-- The scanners for the files of a kind, in the order of their tasks. -/
def FileKind.scanners : FileKind → List Scanner
  | .markdown => [.codeBlock, .frontmatter]
  | .script => [.script, .scriptImport]
  | .hooks => [.hook]
  | .servers => [.mcp]
  | .other => []

/-- No file is scanned as the manifest is. -/
theorem FileKind.declaration_notMem_scanners (k : FileKind) : Scanner.declaration ∉ k.scanners := by
  cases k <;> decide

/-- A scan that finds what its scanner may find, finds that as a task, too: if it fails, nothing. -/
theorem Scan.finds_run {x : Scan} (h : ∀ es, x.evidence = .ok es → x.scanner.Finds x.file es) :
    x.scanner.Finds x.file x.task.run.1 := by
  cases he : x.evidence with
  | ok es =>
    have hrun : x.task.run = (es, []) := ScanTask.run_of_ok he
    rw [hrun]
    exact h es he
  | error f =>
    have hrun : x.task.run = ([], [.scanner x.task.label f]) := ScanTask.run_of_error he
    rw [hrun]
    exact .nil _ _

namespace PluginFile

variable {rules : RuleTables} {f : PluginFile} {x : Scan}

/-- The scanners for a file are those for its kind, as far as there is something to scan. -/
theorem scanners_sublist (rules : RuleTables) (f : PluginFile) :
    ((f.scans rules).map (·.scanner)).Sublist f.kind.scanners := by
  unfold scans
  -- A file without content, or with data of a wrong shape, has fewer scans than its kind has
  -- scanners.
  cases f.kind with
  | markdown =>
    cases f.content with
    | none => exact List.nil_sublist _
    | some content => exact List.Sublist.refl _
  | script =>
    cases f.content with
    | none => exact (List.nil_sublist _).cons_cons _
    | some content => exact List.Sublist.refl _
  | hooks =>
    dsimp only
    split
    · exact List.Sublist.refl _
    · exact List.nil_sublist _
  | servers =>
    dsimp only
    split
    · exact List.Sublist.refl _
    · exact List.nil_sublist _
  | other => exact List.nil_sublist _

/-- Each scan of a file is on the file, and finds what its scanner may find there. -/
theorem of_mem_scans (h : x ∈ f.scans rules) :
    x.file = f.path ∧ ∀ es, x.evidence = .ok es → x.scanner.Finds x.file es := by
  unfold scans at h
  -- Kind by kind the scans are few, and what each finds is said by the lemma on its scanner.
  split at h
  · split at h
    · simp only [List.mem_cons, List.not_mem_nil, or_false] at h
      rcases h with rfl | rfl
      · refine ⟨rfl, fun es hes => ?_⟩
        cases hes
        exact Markdown.finds_commandEvidence rules f.path _
      · exact ⟨rfl, fun es hes => Declaration.finds_fieldsEvidence hes⟩
    · cases h
  · rcases List.mem_cons.mp h with rfl | h
    · refine ⟨rfl, fun es hes => ?_⟩
      cases hes
      exact Script.finds_fileEvidence? rules f.path
    · split at h
      · rw [List.mem_singleton.mp h]
        refine ⟨rfl, fun es hes => ?_⟩
        cases hes
        exact Script.finds_contentEvidence rules f.path _
      · cases h
  · split at h
    · rw [List.mem_singleton.mp h]
      exact ⟨rfl, fun es hes => Hooks.finds_evidence hes⟩
    · cases h
  · split at h
    · rw [List.mem_singleton.mp h]
      exact ⟨rfl, fun es hes => Servers.finds_evidence hes⟩
    · cases h
  · cases h

/-- Each task of a file finds what its scanner may find in the file. -/
theorem finds_of_mem_scans (h : x ∈ f.scans rules) : x.scanner.Finds f.path x.task.run.1 := by
  obtain ⟨hfile, hfinds⟩ := of_mem_scans h
  rw [← hfile]
  exact Scan.finds_run hfinds

end PluginFile

/-- The task for a manifest finds what its scanner may find there. -/
theorem Manifest.finds_scan (m : Manifest) : Scanner.declaration.Finds m.path m.scan.task.run.1 :=
  Scan.finds_run (x := m.scan) fun _ h => Declaration.finds_manifestEvidence h

namespace Contents

variable {rules : RuleTables} {c : Contents} {x : Scan}

/-- A scan of a plugin is that of the manifest, or a scan of a file by a scanner for its kind. -/
theorem mem_scans (h : x ∈ c.scans rules) :
    x = c.manifest.scan ∨
      ∃ f ∈ c.files, x.file = f.path ∧ x.scanner ∈ f.kind.scanners ∧ x ∈ f.scans rules := by
  rcases List.mem_cons.mp h with rfl | h
  · exact .inl rfl
  · obtain ⟨f, hf, hx⟩ := List.mem_flatMap.mp h
    refine .inr ⟨f, hf, (PluginFile.of_mem_scans hx).1, ?_, hx⟩
    exact (PluginFile.scanners_sublist rules f).subset (List.mem_map_of_mem hx)

/-- Each task of a plugin finds what its scanner may find in its file. -/
theorem finds_of_mem_scans (h : x ∈ c.scans rules) : x.scanner.Finds x.file x.task.run.1 := by
  rcases mem_scans h with rfl | ⟨f, -, hfile, -, hx⟩
  · exact c.manifest.finds_scan
  · rw [hfile]
    exact PluginFile.finds_of_mem_scans hx

end Contents

namespace Analyzer

/-- The scans of a plugin whose scanners are on. -/
def scans (a : Analyzer) (c : Contents) : List Scan :=
  (c.scans a.rules).filter (·.scanner.isOn a.config.scanners)

/-- The evidence that is found is that of the scans whose scanners are on, and the notes on them
come after those that were there and those on the shape of configurations. -/
theorem scan_eq_scans (a : Analyzer) (c : Contents) (notes : List Note) :
    a.scan c notes = a.config.workers.toInt.map fun _ => ((a.scans c).flatMap (·.task.run.1),
      notes ++ (a.tasks c).2 ++ (a.scans c).flatMap (·.task.run.2)) := by
  cases hw : a.config.workers.toInt with
  | error f =>
    unfold scan
    rw [hw]
    rfl
  | ok workers =>
    have htasks : (a.tasks c).1 = (a.scans c).map Scan.task :=
      ScanTask.ofContents_eq a.config.scanners a.rules c
    rw [a.scan_eq c notes hw, htasks, List.flatMap_map, List.flatMap_map]
    rfl

/-- The result for a plugin that was read, with what its scans find. -/
def resultIn (a : Analyzer) (c : Contents) (notes : List Note) : Result :=
  resultOf c ((a.scans c).flatMap (·.task.run.1))
    (notes ++ (a.tasks c).2 ++ (a.scans c).flatMap (·.task.run.2))

/-- An analysis opens a plugin and reads it, and what its scans find makes the result. -/
theorem analyze_eq_scans (a : Analyzer) (d : Disk) (path : Text) : a.analyze d path =
    Plugin.open? d path a.config.files >>= fun p => (p.contents d).outcome >>= fun c =>
      a.config.workers.toInt.map fun _ => a.resultIn c (p.contents d).notes := by
  unfold analyze
  rw [survey_eq]
  cases Plugin.open? d path a.config.files with
  | error f => rfl
  | ok p =>
    change ((p.contents d).outcome >>= _) >>= _ = (p.contents d).outcome >>= _
    cases (p.contents d).outcome with
    | error f => rfl
    | ok c =>
      change (a.scan c (p.contents d).notes).map _ >>= _ = _
      rw [scan_eq_scans]
      cases a.config.workers.toInt <;> rfl

/-- What a survey finds, the scans whose scanners are on find. -/
theorem found_eq_scans {a : Analyzer} {d : Disk} {path : Text} {c : Contents}
    {found : List Evidence} {notes : List Note} (h : a.survey d path = .ok (c, found, notes)) :
    found = (a.scans c).flatMap (·.task.run.1) := by
  obtain ⟨p, -, -, hscan⟩ := exists_of_survey h
  rw [scan_eq_scans] at hscan
  obtain ⟨workers, -, hscan⟩ := Attempt.map_eq_ok_iff.mp hscan
  exact (Prod.mk.inj hscan).1.symm

end Analyzer

end SurfaceAudit
