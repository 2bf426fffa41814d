import SurfaceAudit.Pattern.Parse
import SurfaceAudit.Proofs.Chaining
import SurfaceAudit.Proofs.Formulas

/-!
# The small shell is found as a word

The rule for the small shell looks for its name in a command, and the name has to stand by itself
(`Bundled.StandsAlone`). That is a condition on the words of the command, which are its parts
between blanks: one of them is the name, or has it at its end behind a separator
(`Bundled.appliesTo_sh_iff_words`). So a word that does not end in this way changes nothing,
whatever else it holds (`Bundled.appliesTo_sh_setApart`), and the rule decides on the class of a
command unless one that is tried before it does (`RuleTables.exists_signal_iff`).

The texts of the patterns say the same as the expressions of the rules, though they join their parts
in another way (`Bundled.exists_parse`).
-/

namespace SurfaceAudit

open Text

namespace Pattern

deriving instance DecidableEq for Expr

namespace Expr

/-- The parts of an expression that stand one after the other, those inside of them joined anew. -/
def parts : Expr → List Expr
  | .empty => []
  | .seq e f => e.parts ++ f.parts
  | .alt e f => [.alt (all e.parts) (all f.parts)]
  | .ahead positive e => [.ahead positive (all e.parts)]
  | e => [e]

/-- The expression with its parts joined anew, so that it does not matter how they were joined. -/
def rejoined (e : Expr) : Expr := all e.parts

variable {e f : Expr} {a m r : Text}

/-- Expressions one after the other match a text in two steps. -/
theorem matches_all_append (es fs : List Expr) : (all (es ++ fs)).Matches a m r ↔
    ∃ m₁ m₂, m = m₁ ++ m₂ ∧ (all es).Matches a m₁ (m₂ ++ r) ∧ (all fs).Matches (a ++ m₁) m₂ r := by
  induction es generalizing a m with
  | nil => simp [all, Matches]
  | cons e es ih =>
    constructor
    · rintro ⟨m₁, m', rfl, he, hes⟩
      obtain ⟨m₂, m₃, rfl, hes, hfs⟩ := ih.mp hes
      exact ⟨m₁ ++ m₂, m₃, by simp, ⟨m₁, m₂, rfl, by simpa using he, hes⟩, by simpa using hfs⟩
    · rintro ⟨_, m₃, rfl, ⟨m₁, m₂, rfl, he, hes⟩, hfs⟩
      exact ⟨m₁, m₂ ++ m₃, by simp, by simpa using he,
        ih.mpr ⟨m₂, m₃, rfl, hes, by simpa using hfs⟩⟩

/-- An expression matches the same by itself and as the only one of several. -/
theorem matches_all_singleton : (all [e]).Matches a m r ↔ e.Matches a m r := by
  constructor
  · rintro ⟨m, _, rfl, he, rfl⟩
    simpa using he
  · intro he
    exact ⟨m, [], by simp, by simpa using he, rfl⟩

/-- How the parts are joined does not bear on what is matched. -/
theorem matches_rejoined_iff : e.rejoined.Matches a m r ↔ e.Matches a m r := by
  unfold rejoined
  induction e generalizing a m r with
  | empty => exact Iff.rfl
  | seq e f ihe ihf => simp only [parts, matches_all_append, ihe, ihf, Matches]
  | alt e f ihe ihf => simp only [parts, matches_all_singleton, Matches, ihe, ihf]
  | ahead positive e ih =>
    rw [parts, matches_all_singleton]
    cases positive with
    | true => simp only [Matches, ih]
    | false => exact Iff.rfl
  | unit | anchor | group | atomic | repeated | behind | back | ifGroup =>
    exact matches_all_singleton

/-- Plain expressions that have the same parts are found in the same texts. -/
theorem isFoundIn_eq_of_rejoined (he : e.isPlain = true) (hf : f.isPlain = true)
    (h : e.rejoined = f.rejoined) (t : Text) : e.isFoundIn t = f.isFoundIn t := by
  have hmatches (a m r : Text) : e.Matches a m r ↔ f.Matches a m r := by
    rw [← matches_rejoined_iff, h, matches_rejoined_iff]
  rw [Bool.eq_iff_iff, isFoundIn_iff he, isFoundIn_iff hf]
  simp only [hmatches]

end Expr

end Pattern

namespace Text

variable {a r t w : Text}

/-- A text that is set apart by blanks has its words between those of what is around it. -/
theorem words_setApart (h : SetApart Point.isBlank a r) (t : Text) :
    words (a ++ (t ++ r)) = words a ++ (words t ++ words r) := by
  have hright : words (t ++ r) = words t ++ words r := by
    cases r with
    | nil => simp [words, fields, fieldsFrom]
    | cons p r =>
      have hp : p.isBlank = true := h.right p rfl
      rw [words_append hp, words_cons hp]
  rcases a.eq_nil_or_concat' with rfl | ⟨a, p, rfl⟩
  · exact hright
  · have hp : p.isBlank = true := h.left p (by simp)
    have hleft : words (a ++ [p]) = words a := by
      rw [words_append hp]
      exact List.append_nil _
    rw [List.append_assoc, List.singleton_append, words_append hp, hright, hleft]

/-- The words of a text are the parts of it without blanks that are set apart by blanks. -/
theorem mem_words_iff : w ∈ t.words ↔ w ≠ [] ∧ (∀ p ∈ w, p.isBlank = false) ∧
    ∃ a r, t = a ++ (w ++ r) ∧ SetApart Point.isBlank a r := by
  constructor
  · intro hw
    obtain ⟨hfield, hne⟩ := List.mem_filter.mp hw
    obtain ⟨i, hi⟩ := List.mem_iff_getElem?.mp hfield
    obtain ⟨a, r, ht, hapart, -⟩ := exists_field hi
    exact ⟨by simpa using hne, not_sep_of_mem_fields hfield, a, r, ht, hapart⟩
  · rintro ⟨hne, hsolid, a, r, rfl, hapart⟩
    rw [words_setApart hapart, words_eq_singleton hne hsolid]
    simp

/-- A text ends with a part without blanks, before which it is empty or ends with a blank. -/
theorem exists_solid_end (t : Text) : ∃ a b, t = a ++ b ∧ (∀ p ∈ a.getLast?, p.isBlank = true) ∧
    ∀ p ∈ b, p.isBlank = false := by
  induction t with
  | nil => exact ⟨[], [], rfl, by simp, by simp⟩
  | cons q t ih =>
    obtain ⟨a, b, rfl, ha, hb⟩ := ih
    cases a with
    | cons p a => exact ⟨q :: p :: a, b, rfl, by simpa using ha, hb⟩
    | nil =>
      -- The part goes up to the first code point, which may be a blank itself.
      cases hq : q.isBlank with
      | true => exact ⟨[q], b, rfl, by simpa using hq, hb⟩
      | false => exact ⟨[], q :: b, rfl, by simp, List.forall_mem_cons.mpr ⟨hq, hb⟩⟩

end Text

namespace RuleTables

variable {rules : RuleTables} {before after : List CommandRule} {rule : CommandRule} {c : Text}

/-- If no two rules have the same signal, then a command has the signal of a rule exactly if the
rule is about it and none is that is tried before. -/
theorem exists_signal_iff (hsplit : rules.commands = before ++ rule :: after)
    (honce : (rules.commands.map (·.signal)).Nodup) (hc : c ≠ []) :
    (∃ k, rules.classifyCommand c = some k ∧ k.signal = rule.signal) ↔
      rule.appliesTo c = true ∧ ∀ r ∈ before, r.appliesTo c = false := by
  have hclass : rules.classifyCommand c =
      ((before ++ rule :: after).find? (·.appliesTo c)).map fun r =>
        ⟨r.signal, r.template.impact⟩ := by
    rw [classifyCommand, if_neg (by simpa using hc), hsplit]
  rw [hsplit, List.map_append, List.map_cons, List.nodup_append, List.nodup_cons] at honce
  obtain ⟨-, ⟨hafter, -⟩, hbefore⟩ := honce
  rw [hclass]
  constructor
  · rintro ⟨k, hk, hsignal⟩
    obtain ⟨first, hfirst, rfl⟩ := Option.map_eq_some_iff.mp hk
    rw [List.find?_append, List.find?_cons] at hfirst
    cases hfind : before.find? (·.appliesTo c) with
    | some r =>
      -- A rule that is tried before has another signal.
      rw [hfind] at hfirst
      cases hfirst
      have hmem := List.mem_map_of_mem (f := (·.signal)) (List.mem_of_find?_eq_some hfind)
      exact absurd hsignal (hbefore _ hmem _ List.mem_cons_self)
    | none =>
      refine ⟨?_, by simpa using hfind⟩
      rw [hfind, Option.none_or] at hfirst
      split at hfirst
      · cases hfirst
        assumption
      · -- So has one that is tried after it.
        have hmem := List.mem_map_of_mem (f := (·.signal)) (List.mem_of_find?_eq_some hfirst)
        exact absurd (hsignal ▸ hmem) hafter
  · rintro ⟨happlies, hnone⟩
    have hfind : before.find? (·.appliesTo c) = none := by simpa using hnone
    rw [List.find?_append, hfind, Option.none_or, List.find?_cons, happlies]
    exact ⟨_, rfl, rfl⟩

end RuleTables

namespace Bundled

variable {a r c u w : Text}

/-- The flags of a bundled rule: the one for the small shell looks at lines. -/
def flags (rule : CommandRule) : Pattern.Flags := if rule.priority = 60 then [.multiLine] else []

/-- The pattern of each bundled rule spells, under its flags, an expression that is found in exactly
those texts that the rule is about. -/
theorem exists_parse {rule : CommandRule} (hrule : rule ∈ tables.commands) :
    ∃ e, Pattern.Expr.parse (flags rule) rule.pattern = .ok e ∧
      ∀ t, e.isFoundIn t = rule.appliesTo t := by
  -- The parts are compared by running the parser on each pattern.
  have hall : ∀ x ∈ tables.commands.map fun rule =>
        ((Pattern.Expr.parse (flags rule) rule.pattern).toOption, rule.expr),
      ∃ e ∈ x.1, e.isPlain = true ∧ x.2.isPlain = true ∧ e.rejoined = x.2.rejoined := by
    decide +kernel
  obtain ⟨e, he, hplain, hplain', hparts⟩ := hall _ (List.mem_map_of_mem hrule)
  refine ⟨e, ?_, Pattern.Expr.isFoundIn_eq_of_rejoined hplain hplain' hparts⟩
  cases hparse : Pattern.Expr.parse (flags rule) rule.pattern with
  | ok e' =>
    rw [hparse] at he
    cases he
    rfl
  | error d =>
    rw [hparse] at he
    cases he

/-- The name of the small shell stands alone between two texts: it is at the start, or behind a
blank or a separator, and it is at the end or before a blank. -/
structure StandsAlone (a r : Text) : Prop where
  /-- What is before it. -/
  left : ∀ p ∈ a.getLast?, p.isBlank = true ∨ p ∈ separators
  /-- What is after it. -/
  right : ∀ p ∈ r.head?, p.isBlank = true

/-- The rule for the small shell is about a command exactly if the name stands alone in it at some
place. -/
theorem appliesTo_sh_iff_standsAlone :
    sh.appliesTo c = true ↔ ∃ a r, c = a ++ (("sh" : Text) ++ r) ∧ StandsAlone a r := by
  rw [appliesTo_sh_iff]
  constructor
  · rintro ⟨a, r, hc, ha, hr⟩
    exact ⟨a, r, hc, ha, hr⟩
  · rintro ⟨a, r, hc, ha, hr⟩
    exact ⟨a, r, hc, ha, hr⟩

/-- A word calls the small shell: it ends with the name, and before the name, if anything, is a
separator. -/
def CallsShell (w : Text) : Prop := ∃ u, w = u ++ ("sh" : Text) ∧ ∀ p ∈ u.getLast?, p ∈ separators

/-- With something before the name at its end, a word calls the small shell exactly if that is a
separator. It does not if it is the dot of an extension, or a letter. -/
theorem callsShell_concat_iff {p : Point} :
    CallsShell (u ++ p :: ("sh" : Text)) ↔ p ∈ separators := by
  have hsplit : u ++ p :: ("sh" : Text) = (u ++ [p]) ++ ("sh" : Text) := by simp
  constructor
  · rintro ⟨v, hv, hlast⟩
    obtain rfl : u ++ [p] = v := List.append_cancel_right (hsplit.symm.trans hv)
    exact hlast p (by simp)
  · intro hp
    exact ⟨u ++ [p], hsplit, by simpa using hp⟩

/-- The rule for the small shell is about a command exactly if one of its words calls the small
shell. -/
theorem appliesTo_sh_iff_words : sh.appliesTo c = true ↔ ∃ w ∈ c.words, CallsShell w := by
  rw [appliesTo_sh_iff_standsAlone]
  constructor
  · rintro ⟨a, r, rfl, ha, hr⟩
    -- The word begins behind the last blank before the name.
    obtain ⟨b, u, rfl, hb, hu⟩ := exists_solid_end a
    have hsolid : ∀ p ∈ u ++ ("sh" : Text), p.isBlank = false :=
      List.forall_mem_append.mpr ⟨hu, by decide⟩
    refine ⟨u ++ ("sh" : Text), ?_, u, rfl, fun p hp => ?_⟩
    · exact mem_words_iff.mpr
        ⟨by simp [ofString], hsolid, b, r, by simp only [List.append_assoc], hb, hr⟩
    · refine (ha p (by simp [Option.mem_def.mp hp])).resolve_left fun hblank => ?_
      rw [hu p (List.mem_of_mem_getLast? hp)] at hblank
      cases hblank
  · rintro ⟨w, hw, u, rfl, hu⟩
    obtain ⟨-, -, a, r, rfl, hapart⟩ := mem_words_iff.mp hw
    refine ⟨a ++ u, r, by simp only [List.append_assoc], fun p hp => ?_, hapart.right⟩
    -- Before the name is what is before it in the word, or else what is before the word.
    cases hlast : u.getLast? with
    | some q =>
      obtain rfl : q = p := by simpa [hlast] using hp
      exact .inr (hu q hlast)
    | none => exact .inl (hapart.left p (by simpa [hlast] using hp))

/-- A text without blanks that is set apart by them, and does not call the small shell, does not
bear on whether the rule is about a command. -/
theorem appliesTo_sh_setApart (h : SetApart Point.isBlank a r) (hw : ∀ p ∈ w, p.isBlank = false)
    (hcalls : ¬CallsShell w) : sh.appliesTo (a ++ (w ++ r)) = true ↔
      sh.appliesTo a = true ∨ sh.appliesTo r = true := by
  have hnone : ¬∃ x ∈ words w, CallsShell x := by
    rintro ⟨x, hx, hcx⟩
    by_cases hne : w = []
    · subst hne
      cases hx
    · rw [words_eq_singleton hne hw] at hx
      exact hcalls (List.mem_singleton.mp hx ▸ hcx)
  simp only [appliesTo_sh_iff_words, words_setApart h, List.mem_append, or_and_right, exists_or]
  rw [or_iff_right hnone]

end Bundled

/-- Each bundled rule is about the texts in which the expression is found that its pattern spells,
and the one with the priority 60 is about a command exactly if the name of the small shell stands
alone in it at some place. That is, one of its words calls the small shell, and a word that does
not, such as one with an extension or a longer name, can be anything at all. The command has the
signal of that rule exactly if the rule is about it and the rules for installing packages, for the
package manager, for the interpreter and for the large shell are not. -/
theorem shell_found_as_word (c : Text) :
    (∀ rule ∈ Bundled.tables.commands,
      ∃ e, Pattern.Expr.parse (Bundled.flags rule) rule.pattern = .ok e ∧
        ∀ t, e.isFoundIn t = rule.appliesTo t) ∧
    Bundled.tables.commands.filter (·.priority == 60) = [Bundled.sh] ∧
    (Bundled.sh.appliesTo c = true ↔
      ∃ a r, c = a ++ (("sh" : Text) ++ r) ∧ Bundled.StandsAlone a r) ∧
    (Bundled.sh.appliesTo c = true ↔ ∃ w ∈ c.words, Bundled.CallsShell w) ∧
    (∀ a w r, c = a ++ (w ++ r) → SetApart Point.isBlank a r → (∀ p ∈ w, p.isBlank = false) →
      ¬Bundled.CallsShell w →
      (Bundled.sh.appliesTo c = true ↔
        Bundled.sh.appliesTo a = true ∨ Bundled.sh.appliesTo r = true)) ∧
    ((∃ k, Bundled.tables.classifyCommand c = some k ∧ k.signal = "sh") ↔
      (∃ a r, c = a ++ (("sh" : Text) ++ r) ∧ Bundled.StandsAlone a r) ∧
      ∀ rule ∈ [Bundled.pipInstall, Bundled.npmInstall, Bundled.uv, Bundled.python, Bundled.bash],
        rule.appliesTo c = false) := by
  refine ⟨fun rule => Bundled.exists_parse, rfl, Bundled.appliesTo_sh_iff_standsAlone,
    Bundled.appliesTo_sh_iff_words, ?_, ?_⟩
  · rintro a w r rfl h hw hcalls
    exact Bundled.appliesTo_sh_setApart h hw hcalls
  · rw [← Bundled.appliesTo_sh_iff_standsAlone]
    by_cases hc : c = []
    · -- The empty command has no class, and no rule is about it.
      subst hc
      have hnot : Bundled.sh.appliesTo [] = false :=
        Bundled.appliesTo_nil (by simp [Bundled.tables])
      simp [RuleTables.classifyCommand, hnot]
    · have hsplit : Bundled.tables.commands = [Bundled.pipInstall, Bundled.npmInstall, Bundled.uv,
          Bundled.python, Bundled.bash] ++ Bundled.sh :: [Bundled.node] := rfl
      exact RuleTables.exists_signal_iff hsplit (by decide) hc

/-- A script that is piped into the small shell: its extension does not bear on whether the rule is
about the command. -/
theorem shell_found_as_word_piped :
    SetApart Point.isBlank ("cat " : Text) (" | sh" : Text) ∧ ¬Bundled.CallsShell ("x.sh" : Text) ∧
    (Bundled.sh.appliesTo ("cat x.sh | sh" : Text) = true ↔
      Bundled.sh.appliesTo ("cat " : Text) = true ∨
        Bundled.sh.appliesTo (" | sh" : Text) = true) := by
  have hapart : SetApart Point.isBlank ("cat " : Text) (" | sh" : Text) := ⟨by decide, by decide⟩
  have hcalls : ¬Bundled.CallsShell ("x.sh" : Text) := fun h =>
    absurd (Bundled.callsShell_concat_iff (u := ("x" : Text)) (p := '.').mp h) (by decide)
  exact ⟨hapart, hcalls, (shell_found_as_word _).2.2.2.2.1 _ ("x.sh" : Text) _ rfl hapart
    (by decide) hcalls⟩

end SurfaceAudit
