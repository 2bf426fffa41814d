import SurfaceAudit.Proofs.FirstSeen
import SurfaceAudit.Proofs.Specifiers
import SurfaceAudit.Rules.Bundled

/-!
# The packages that a script imports

Lines import by plain specifiers, in calls or in statements (`Script.Node.LineImports`), and all of
these specifiers are read (`Script.Node.LineImports.mem_specifiers`). So the packages in a script
are packages that its lines name, and the packages of the specifiers by which its lines import are
all found (`packages_found`).
-/

namespace SurfaceAudit

namespace Script.Node

open Text

/-- A line imports by a specifier: in a call of `require` or `import` that stands apart from a word
before it, or in a statement at its start. -/
inductive LineImports (s : Text) : Text → Prop where
  /-- A call anywhere on the line. -/
  | call {word a u r : Text} (word_mem : word ∈ [("require" : Text), "import"])
      (apart : ∀ p ∈ a.getLast?, p.isWord = false) (call : Call word s u) :
      LineImports s (a ++ (u ++ r))
  /-- An import of nothing but the module. -/
  | bare {a g u r : Text} (indent : a.IsBlank) (gap : g.IsGap) (quoted : Quoted s u) :
      LineImports s (a ++ ("import" ++ (g ++ (u ++ r))))
  /-- An import or export with a clause before `from`. -/
  | clause {keyword a g c h b u r : Text} (keyword_mem : keyword ∈ [("import" : Text), "export"])
      (indent : a.IsBlank) (gap : g.IsGap) (quoteless : ∀ p ∈ c, isQuote p = false)
      (before : h.IsGap) (behind : b.IsBlank) (quoted : Quoted s u) :
      LineImports s (a ++ (keyword ++ (g ++ (c ++ (h ++ ("from" ++ (b ++ (u ++ r))))))))

/-- A specifier without blanks and brackets. -/
def IsPlain (s : Text) : Prop :=
  ∀ p ∈ s, p.isBlank = false ∧ p ≠ .scalar '(' ∧ p ≠ .scalar ')'

section Lines

variable {line p s : Text}

/-- A plain specifier by which a line imports is read on it. -/
theorem LineImports.mem_specifiers (h : LineImports s line) (hs : IsPlain s) :
    s ∈ specifiers line := by
  simp only [specifiers, List.mem_append, Option.mem_toList]
  cases h with
  | @call word a u r hmem hlast hu =>
    have hhead : ∀ p ∈ s.head?, p.isBlank = false ∧ p ≠ .scalar ')' := by
      intro p hp
      obtain ⟨hblank, -, hbracket⟩ := hs p (List.mem_of_mem_head? hp)
      exact ⟨hblank, hbracket⟩
    have hcalls (hne : word ≠ []) (hword : ∀ p ∈ word, p.isWord = true) :
        s ∈ calls word (a ++ (u ++ r)) :=
      hu.mem_callsFrom hne hword hhead (fun _ => rfl) hlast (Nat.lt_succ_self _)
    rcases List.mem_pair.mp hmem with rfl | rfl
    · exact .inl (.inl (.inl (hcalls (by decide) (by decide))))
    · exact .inl (.inl (.inr (hcalls (by decide) (by decide))))
  | bare ha hg hu =>
    exact .inl (.inr (statement?_append (w := []) (isPast_cons.mpr (by decide)) (by decide) ha hg
      (by simp) isPast_nil hu rfl))
  | @clause keyword a g c h b u r hmem ha hg hc hh hb hu =>
    rcases List.mem_pair.mp hmem with rfl | rfl
    · exact .inl (.inr (statement?_clause (isPast_cons.mpr (by decide)) (by decide) ha hg hc hh hb
        hu))
    · exact .inr (statement?_clause (isPast_cons.mpr (by decide)) (by decide) ha hg hc hh hb hu)

end Lines

/-- What the evidence of a package says in full. -/
def requirement (p : Text) : Text :=
  ("Third-party Node.js package \"" : Text) ++ p ++ "\" requires npm install"

/-- A name with a number names a package of a third party: the package of itself, and of a specifier
that is in quotes on the line with the number, which is the first line that names the package. -/
structure NamesPackage (content : Text) (x : Text × Nat) : Prop where
  /-- It has a name. -/
  ne_nil : x.1 ≠ []
  /-- It does not come with the runtime. -/
  foreign : x.1 ∉ builtins
  /-- It is its own package. -/
  normal : package? x.1 = some x.1
  /-- It is the package of a specifier on the line, and no line before it names the package. -/
  onLine : ∃ i line, x.2 = i + 1 ∧ content.lines[i]? = some line ∧
    (∃ s u, Quoted s u ∧ u <:+: line ∧ package? s = some x.1) ∧ x.1 ∈ packages line ∧
    ∀ j < i, ∀ l, content.lines[j]? = some l → x.1 ∉ packages l

/-- What is seen in a content are packages of third parties. -/
theorem namesPackage_of_mem {content : Text} {x : Text × Nat}
    (h : x ∈ firstSeen packages content) : NamesPackage content x := by
  obtain ⟨i, line, hline, hname, hnumber, hfirst⟩ := mem_firstSeen_iff.mp h
  obtain ⟨s, hs, hpackage⟩ := mem_packages_iff.mp hname
  obtain ⟨u, hu, hinfix⟩ := exists_quoted hs
  exact ⟨ne_nil_of_package? hpackage, (package?_eq_some_iff.mp hpackage).2.2.2,
    package?_package hpackage, i, line, hnumber, hline, ⟨s, u, hu, hinfix, hpackage⟩, hname, hfirst⟩

/-- The evidence of a script is one piece for each package of a third party. -/
theorem nodeEvidence_eq (rules : RuleTables) (file content : Text) :
    nodeEvidence rules file content = (rules.imports.get? "node").elim []
      fun r => (firstSeen packages content).map (importOf r requirement file) :=
  importEvidence_eq rules "node" packages requirement file content

end Script.Node

open Script Script.Node

/-- Packages are found soundly and completely, and under their own names. The evidence of a script
is one piece for each of its packages, which are distinct, and each names a package of a third party
that a specifier on its line has. Conversely, the package of a plain specifier by which a line
imports is found on this line or on an earlier one. A path in a package with a plain name that has
no colon has the same package as the name, and so has a path in a package with a scoped name. -/
theorem packages_found (rules : RuleTables) (file content : Text) :
    (nodeEvidence rules file content = (rules.imports.get? "node").elim []
      fun r => (firstSeen packages content).map (importOf r requirement file)) ∧
    ((firstSeen packages content).map (·.1)).Nodup ∧
    (∀ x ∈ firstSeen packages content, NamesPackage content x) ∧
    (∀ (i : Nat) (line s p : Text), content.lines[i]? = some line → LineImports s line → IsPlain s →
      package? s = some p → ∃ n ≤ i + 1, (p, n) ∈ firstSeen packages content) ∧
    (∀ p sub : Text, .scalar '/' ∉ p → .scalar ':' ∉ p → (∀ q ∈ p.head?, q ≠ .scalar '@') →
      package? (p ++ .scalar '/' :: sub) = package? p) ∧
    ∀ scope name sub : Text, .scalar '/' ∉ scope → .scalar '/' ∉ name →
      package? (.scalar '@' :: (scope ++ .scalar '/' :: (name ++ .scalar '/' :: sub))) =
        package? (.scalar '@' :: (scope ++ .scalar '/' :: name)) := by
  refine ⟨nodeEvidence_eq rules file content, nodup_firstSeen packages content,
    fun x hx => namesPackage_of_mem hx, fun i line s p hline himports hplain hpackage => ?_,
    fun p sub hslash hcolon hat => package?_subpath hslash hcolon hat sub,
    fun scope name sub hscope hslash => package?_scoped_subpath hscope hslash sub⟩
  have hnames : p ∈ packages line :=
    mem_packages_iff.mpr ⟨s, himports.mem_specifiers hplain, hpackage⟩
  exact exists_mem_firstSeen hline hnames

namespace Script.Node

/-- A line with two calls, the first of which is no import of a package. -/
def sampleLine : Text := "require('x require(\"lodash/fp\")"

/-- The sample line imports the package behind its second quote. -/
theorem lineImports_sample : LineImports "lodash/fp" sampleLine := by
  have hnone : Text.IsBlank [] := by simp [Text.IsBlank]
  have hquoted : Quoted "lodash/fp" "\"lodash/fp\"" :=
    @Quoted.mk "lodash/fp" (.scalar '"') (.scalar '"') (by decide) (by decide) (by decide)
      (by decide)
  exact .call (a := "require('x ") (r := []) (List.mem_cons_self) (by decide)
    (.mk hnone hnone hquoted hnone)

end Script.Node

/-- A call is found behind a specifier that is not closed. -/
theorem packages_found_sample : LineImports "lodash/fp" sampleLine ∧ IsPlain "lodash/fp" ∧
    package? "lodash/fp" = some ("lodash" : Text) ∧
    ∃ n ≤ 1, (("lodash" : Text), n) ∈ firstSeen packages sampleLine := by
  have hlines : sampleLine.lines[0]? = some sampleLine := by decide +kernel
  have hplain : IsPlain "lodash/fp" := by
    intro p hp
    revert p
    decide +kernel
  have hpackage : package? "lodash/fp" = some ("lodash" : Text) := by decide +kernel
  obtain ⟨-, -, -, hfound, -⟩ := packages_found Bundled.tables "f.js" sampleLine
  exact ⟨lineImports_sample, hplain, hpackage,
    hfound 0 sampleLine _ _ hlines lineImports_sample hplain hpackage⟩

end SurfaceAudit
