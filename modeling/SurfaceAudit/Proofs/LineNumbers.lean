import SurfaceAudit.Proofs.FirstSeen
import SurfaceAudit.Proofs.ImportLists
import SurfaceAudit.Proofs.Segments
import SurfaceAudit.Proofs.Specifiers
import SurfaceAudit.Rules.Bundled

/-!
# Line numbers

The commands in documents and the imports in scripts are evidence with the number of a line. The
lines that are numbered end where any code point does that ends a line (`Text.lines`), while a
reader of the file counts line feeds (`Text.rows`). What evidence shows stands in the file behind as
many line ends as its number tells (`line_numbers_drift`): the number is that of its row, and one
more for each line end before it that is no line feed.
-/

namespace SurfaceAudit

/-- What ends a line and is no line feed. -/
def Point.isStray (p : Point) : Bool := p.endsLine && p != .scalar '\n'

namespace Text

/-- The line ends in a text are its line feeds and the stray ones. -/
theorem countP_endsLine (t : Text) : t.countP Point.endsLine =
    t.countP (· == .scalar '\n') + t.countP Point.isStray := by
  induction t with
  | nil => rfl
  | cons p t ih =>
    simp only [List.countP_cons, ih, Point.isStray]
    by_cases hp : p = .scalar '\n'
    · subst hp
      simp only [show (Point.scalar '\n').endsLine = true by decide]
      simp
      omega
    · simp [hp]
      omega

/-- A part of a line stands behind as many line ends as there are lines before it, and on the row
behind as many line feeds. -/
theorem exists_row {t l m : Text} {i : Nat} (ht : .scalar '\r' ∉ t) (h : t.lines[i]? = some l)
    (hm : m <:+: l) : ∃ a r row, t = a ++ (m ++ r) ∧ a.countP Point.endsLine = i ∧
      t.rows[a.countP (· == .scalar '\n')]? = some row ∧ m <:+: row := by
  obtain ⟨b, r, rfl, -, hunbroken, hcount⟩ := exists_line h
  obtain ⟨u, v, rfl⟩ := hm
  simp only [IsUnbroken, List.forall_mem_append] at hunbroken
  -- The line has no line end, so that the part has no line feed and is on one row.
  have hfeed : ∀ p ∈ m, (p == .scalar '\n') = false := by
    intro p hp
    refine beq_eq_false_iff_ne.mpr ?_
    rintro rfl
    exact absurd (hunbroken.1.2 _ hp) (by decide)
  obtain ⟨row, hrow, hmem⟩ := exists_field_of_append (b ++ u) (v ++ r) hfeed
  refine ⟨b ++ u, v ++ r, row, by simp, ?_, ?_, hmem⟩
  · rw [List.countP_append, hcount ht, List.countP_eq_zero.mpr (by simpa using hunbroken.1.1),
      Nat.add_zero]
  · rw [← hrow]
    simp [rows]

end Text

namespace Markdown

/-- The command of a line is a part of it. -/
theorem infix_command (line : Text) : command line <:+: line := by
  obtain ⟨rest, hrest, hc⟩ := isCommand_iff.mpr (rfl : command line = command line)
  rw [hc]
  rcases hrest with ⟨a, b, rfl, -⟩ | ⟨-, rfl⟩
  · exact (Text.infix_strip rest).trans ⟨a ++ .scalar '$' :: b, [], by simp⟩
  · exact Text.infix_strip rest

end Markdown

namespace Script

/-- The evidence of an import names what is on its line. -/
theorem of_mem_importEvidence {rules : RuleTables} {language : Text} {names : Text → List Text}
    {detail : Text → Text} {file content : Text} {e : Evidence}
    (h : e ∈ importEvidence rules language names detail file content) :
    ∃ r name line, ∃ i : Nat, rules.imports.get? language = some r ∧
      content.lines[i]? = some line ∧ name ∈ names line ∧
      e = ⟨.scriptImport, file, some ((i : Int) + 1), r.signal ++ name, detail name,
        r.template.impact⟩ := by
  rw [importEvidence_eq] at h
  cases hr : rules.imports.get? language with
  | none => simp [hr] at h
  | some r =>
    rw [hr] at h
    obtain ⟨⟨name, number⟩, hx, rfl⟩ := List.mem_map.mp h
    obtain ⟨i, line, hline, hname, rfl, -⟩ := mem_firstSeen_iff.mp hx
    exact ⟨r, name, line, i, rfl, hline, hname, rfl⟩

end Script

open Markdown Script

/-- What the evidence of a command or of an import shows: the command, the module, or a specifier
that begins with the package. -/
inductive Evidence.Shows (rules : RuleTables) (file : Text) : Evidence → Text → Prop where
  /-- A command of a document. -/
  | command {c : Text} {k : Classification} {line : Option Int}
      (class_eq : rules.classifyCommand c = some k) :
      Shows rules file ⟨.codeBlock, file, line, k.signal,
        ("Code block runs '" : Text) ++ k.signal ++ "': " ++ c.take 120, k.impact⟩ c
  /-- A module that a Python script imports. -/
  | module {r : SignalRule} {m : Text} {line : Option Int}
      (rule_eq : rules.imports.get? "python" = some r) :
      Shows rules file ⟨.scriptImport, file, line, r.signal ++ m,
        ("Third-party Python import \"" : Text) ++ m ++ "\" requires pip install",
        r.template.impact⟩ m
  /-- The specifier of a package that a JavaScript script imports. -/
  | specifier {r : SignalRule} {s p : Text} {line : Option Int}
      (rule_eq : rules.imports.get? "node" = some r) (package_eq : Node.package? s = some p)
      (begins : p <+: s) :
      Shows rules file ⟨.scriptImport, file, line, r.signal ++ p,
        ("Third-party Node.js package \"" : Text) ++ p ++ "\" requires npm install",
        r.template.impact⟩ s

/-- The evidence with line numbers that is found in a content: as a document, as a Python script and
as a JavaScript script. -/
def numberedEvidence (rules : RuleTables) (file content : Text) : List Evidence :=
  commandEvidence rules file content ++ pythonEvidence rules file content ++
    nodeEvidence rules file content

/-- What evidence shows is on the line that has its number. -/
theorem exists_line_shown {rules : RuleTables} {file content : Text} {e : Evidence}
    (h : e ∈ numberedEvidence rules file content) :
    ∃ t line, ∃ i : Nat, e.Shows rules file t ∧ content.lines[i]? = some line ∧ t <:+: line ∧
      e.line = some ((i : Int) + 1) := by
  simp only [numberedEvidence, List.mem_append] at h
  -- There are three kinds of numbered evidence: commands in blocks, modules and packages that are
  -- imported.
  rcases h with (h | h) | h
  · obtain ⟨l, hl, he⟩ := List.mem_filterMap.mp h
    obtain ⟨-, c, k, hc, hk, rfl⟩ := lineEvidence?_eq_some_iff.mp he
    obtain ⟨hnumber, hline⟩ := of_mem_blockLinesFrom hl
    obtain rfl := isCommand_iff.mp hc
    refine ⟨_, l.text, l.number - 1, .command hk, hline, infix_command l.text, ?_⟩
    rw [← Int.natCast_add_one, Nat.sub_add_cancel hnumber]
  · obtain ⟨r, m, line, i, hr, hline, hm, rfl⟩ := of_mem_importEvidence h
    have hpart : m <:+: line := Python.infix_of_mem_modules (List.mem_filter.mp hm).1
    exact ⟨m, line, i, .module hr, hline, hpart, rfl⟩
  · obtain ⟨r, p, line, i, hr, hline, hp, rfl⟩ := of_mem_importEvidence h
    obtain ⟨s, hs, hpackage⟩ := Node.mem_packages_iff.mp hp
    have hprefix : p <+: s := (Node.package?_eq_some_iff.mp hpackage).2.2.1.isPrefix
    obtain ⟨u, ⟨-, -, -, -⟩, hu⟩ := Node.exists_quoted hs
    have hpart : s <:+: line := List.IsInfix.trans ⟨[_], [_], rfl⟩ hu
    exact ⟨s, line, i, .specifier hr hpackage hprefix, hline, hpart, rfl⟩

/-- A number leads to a text: the row with the number, counted from 1, has the text on it. -/
def LeadsTo (content : Text) (n : Int) (t : Text) : Prop :=
  ∃ (i : Nat) (row : Text), n = (i : Int) + 1 ∧ content.rows[i]? = some row ∧ t <:+: row

/-- All the numbers that evidence has lead to what it shows. -/
def LeadsRight (rules : RuleTables) (file content : Text) : Prop :=
  ∀ e ∈ numberedEvidence rules file content, ∀ n, e.line = some n →
    ∃ t, e.Shows rules file t ∧ LeadsTo content n t

/-- Line numbers drift by what ends a line and is no line feed. What evidence shows is in the
content, on the row behind as many line feeds as there are before it, and the number that the
evidence has is that of the row and one more for each stray line end before. So the number is right
if there is none before it, and all numbers are if there is none at all. -/
theorem line_numbers_drift (rules : RuleTables) (file content : Text)
    (hcontent : .scalar '\r' ∉ content) :
    (∀ e ∈ numberedEvidence rules file content, ∃ a t r, content = a ++ (t ++ r) ∧
      e.Shows rules file t ∧
      LeadsTo content ((a.countP (· == .scalar '\n') : Int) + 1) t ∧
      e.line = some ((a.countP (· == .scalar '\n') : Int) + 1 + a.countP Point.isStray)) ∧
    ((∀ p ∈ content, p.isStray = false) → LeadsRight rules file content) := by
  -- Both counts are of what stands before: the lines end where the rows do, and at the stray line
  -- ends.
  have hdrift : ∀ e ∈ numberedEvidence rules file content, ∃ a t r, content = a ++ (t ++ r) ∧
      e.Shows rules file t ∧ LeadsTo content ((a.countP (· == .scalar '\n') : Int) + 1) t ∧
      e.line = some ((a.countP (· == .scalar '\n') : Int) + 1 + a.countP Point.isStray) := by
    intro e he
    obtain ⟨t, line, i, hshows, hline, ht, hnumber⟩ := exists_line_shown he
    obtain ⟨a, r, row, hsplit, hcount, hrow, hmem⟩ := Text.exists_row hcontent hline ht
    refine ⟨a, t, r, hsplit, hshows, ⟨_, row, rfl, hrow, hmem⟩, ?_⟩
    rw [hnumber, ← hcount, Text.countP_endsLine]
    congr 1
    omega
  refine ⟨hdrift, fun hstray e he n hn => ?_⟩
  obtain ⟨a, t, r, hsplit, hshows, hleads, hnumber⟩ := hdrift e he
  have hnone : a.countP Point.isStray = 0 :=
    List.countP_eq_zero.mpr fun p hp => by simp [hstray p (hsplit ▸ List.mem_append_left _ hp)]
  obtain rfl := Option.some.inj (hn.symm.trans hnumber)
  rw [hnone]
  exact ⟨t, hshows, by simpa using hleads⟩

/-- An import behind a page break is said to be on the second line. -/
theorem lines_page :
    (pythonEvidence Bundled.tables "f.py" "\x0cimport numpy").map (·.line) = [some 2] := by
  decide +kernel

/-- So there is evidence with a number in that script, and the number is that of the second line. -/
theorem exists_numberedEvidence_page :
    ∃ e ∈ numberedEvidence Bundled.tables "f.py" "\x0cimport numpy", e.line = some 2 := by
  have hmem : some 2 ∈ (pythonEvidence Bundled.tables "f.py" "\x0cimport numpy").map (·.line) := by
    rw [lines_page]
    exact List.mem_singleton_self _
  obtain ⟨e, he, hline⟩ := List.mem_map.mp hmem
  exact ⟨e, List.mem_append_left _ (List.mem_append_right _ he), hline⟩

/-- A page break before an import: the number is that of the row and one more. -/
theorem line_numbers_drift_by_page :
    (.scalar '\r' ∉ ("\x0cimport numpy" : Text)) ∧
    ∃ a t r, ("\x0cimport numpy" : Text) = a ++ (t ++ r) ∧
      LeadsTo "\x0cimport numpy" ((a.countP (· == .scalar '\n') : Int) + 1) t ∧
      some (2 : Int) =
        some ((a.countP (· == .scalar '\n') : Int) + 1 + a.countP Point.isStray) := by
  have hcontent : .scalar '\r' ∉ ("\x0cimport numpy" : Text) := by decide
  obtain ⟨e, he, hline⟩ := exists_numberedEvidence_page
  obtain ⟨a, t, r, hsplit, -, hleads, hnumber⟩ :=
    (line_numbers_drift Bundled.tables "f.py" "\x0cimport numpy" hcontent).1 e he
  exact ⟨hcontent, a, t, r, hsplit, hleads, hline.symm.trans hnumber⟩

/-- Behind a page break, a line separator or a vertical tab the numbers lead past the end of the
content. -/
theorem line_numbers_past_end :
    (commandEvidence Bundled.tables "a.md" "```\n\x0cpip install x").map (·.line) = [some 3] ∧
    ("```\n\x0cpip install x" : Text).rows.length = 2 ∧
    (pythonEvidence Bundled.tables "f.py" "\x0cimport numpy").map (·.line) = [some 2] ∧
    ("\x0cimport numpy" : Text).rows.length = 1 ∧
    (nodeEvidence Bundled.tables "f.js" "'use strict';\u2028require('x')").map (·.line) =
      [some 2] ∧
    ("'use strict';\u2028require('x')" : Text).rows.length = 1 ∧
    ¬∀ rules file content, .scalar '\r' ∉ content → LeadsRight rules file content := by
  refine ⟨by decide +kernel, by decide, lines_page, by decide, by decide +kernel, by decide,
    fun h => ?_⟩
  obtain ⟨e, he, hline⟩ := exists_numberedEvidence_page
  obtain ⟨t, -, i, row, hi, hrow, -⟩ := h Bundled.tables "f.py" _ (by decide) e he 2 hline
  obtain rfl : i = 1 := by omega
  have hrows : ("\x0cimport numpy" : Text).rows = ["\x0cimport numpy"] := by decide
  rw [hrows] at hrow
  cases hrow

end SurfaceAudit
