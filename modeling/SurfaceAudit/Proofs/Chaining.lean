import SurfaceAudit.Hooks
import SurfaceAudit.Proofs.Lines
import SurfaceAudit.Proofs.Matching
import SurfaceAudit.Rules.Bundled

/-!
# Chaining commands softens nothing

The first rule that is about a command decides on its class, so a milder rule in front could hide a
more severe one behind it. The bundled rules are ordered by severity, and so the class is as severe
as any rule that is about the command (`RuleTables.restricts_of_appliesTo`). A rule that is about a
command is also about a longer one in which that command is set apart by blanks
(`Bundled.appliesTo_setApart`): six of the seven patterns look at no more than the edges of words
around what they match (`Pattern.Expr.isSteady`), and the seventh looks for a word by itself
(`Bundled.appliesTo_sh_iff`).
-/

namespace SurfaceAudit

/-- A blank is no part of a word. -/
theorem Point.isWord_of_isBlank {p : Point} (h : p.isBlank = true) : p.isWord = false := by
  -- The blanks beyond ASCII are few, so that none is a letter or a numeral is looked up in the
  -- tables.
  have htables : ∀ n ∈ [0x85, 0xA0, 0x1680, 0x2000, 0x2001, 0x2002, 0x2003, 0x2004, 0x2005, 0x2006,
      0x2007, 0x2008, 0x2009, 0x200A, 0x2028, 0x2029, 0x202F, 0x205F, 0x3000],
      (Alphabet.letters.contains n || Alphabet.numerals.contains n) = false := by
    decide +kernel
  simp only [isBlank, Bool.or_eq_true, Bool.and_eq_true, decide_eq_true_eq, beq_iff_eq] at h
  unfold isWord isAscii
  split
  · rename_i hascii
    rw [decide_eq_true_eq] at hascii
    have hunderscore : p ≠ .scalar '_' := by
      rintro rfl
      have hval : (Point.scalar '_').val = 95 := rfl
      omega
    simp only [isAsciiLetter, isAsciiDigit, between, Char.reduceToNat, Bool.or_eq_false_iff,
      Bool.and_eq_false_iff, decide_eq_false_iff_not, beq_eq_false_iff_ne]
    refine ⟨⟨⟨by omega, by omega⟩, by omega⟩, hunderscore⟩
  · rename_i hascii
    rw [decide_eq_true_eq] at hascii
    refine htables p.val ?_
    simp only [List.mem_cons, List.not_mem_nil, or_false]
    omega

namespace Pattern

open Text

variable {a b m r s : Text}

/-- The last code point before a place is part of a word or not, whatever is set apart before it. -/
theorem isWordPart_left (h : SetApart Point.isBlank b s) :
    isWordPart false (b ++ a).reverse.head? = isWordPart false a.reverse.head? := by
  rw [List.head?_reverse, List.head?_reverse]
  cases ha : a.getLast? with
  | some p => simp [ha]
  | none =>
    obtain rfl := List.getLast?_eq_none_iff.mp ha
    rw [List.append_nil]
    cases hb : b.getLast? with
    | none => rfl
    | some p => simpa [isWordPart, Category.holds] using Point.isWord_of_isBlank (h.left p hb)

/-- So is the first code point after it. -/
theorem isWordPart_right (h : SetApart Point.isBlank b s) :
    isWordPart false (r ++ s).head? = isWordPart false r.head? := by
  cases r with
  | cons p r => rfl
  | nil =>
    rw [List.nil_append]
    cases hs : s.head? with
    | none => rfl
    | some p => simpa [isWordPart, Category.holds] using Point.isWord_of_isBlank (h.right p hs)

namespace Expr

variable {e : Expr}

/-- The expression is plain, and the only condition on a place that it knows is the edge of a
word. -/
def isSteady : Expr → Bool
  | .empty | .unit _ | .anchor (.edge false) => true
  | .seq e f | .alt e f => e.isSteady && f.isSteady
  | .repeated .greedy _ _ (.unit _) => true
  | _ => false

/-- A steady expression is plain. -/
theorem isPlain_of_isSteady (he : e.isSteady = true) : e.isPlain = true := by
  fun_induction isSteady e <;> simp_all [isPlain]

/-- What a steady expression matches in a text, it matches in a longer one in which that text is set
apart by blanks. -/
theorem Matches.setApart (he : e.isSteady = true) (h : SetApart Point.isBlank b s)
    (hm : e.Matches a m r) : e.Matches (b ++ a) m (r ++ s) := by
  -- A steady expression looks at its neighbours only by whether they are part of a word, and a
  -- blank is as good there as the end of the text.
  induction e generalizing a m r with
  | empty => exact hm
  | unit c => exact hm
  | anchor x =>
    obtain rfl : x = .edge false := by
      cases x with
      | edge ascii => cases ascii <;> simp_all [isSteady]
      | _ => cases he
    refine ⟨hm.1, ?_⟩
    have hx := hm.2
    unfold Anchor.holds at hx ⊢
    simp only [State.before_between, State.after_between] at hx ⊢
    rwa [isWordPart_left h, isWordPart_right h]
  | seq e f ihe ihf =>
    obtain ⟨he, hf⟩ := Bool.and_eq_true_iff.mp he
    obtain ⟨m₁, m₂, rfl, hm₁, hm₂⟩ := hm
    refine ⟨m₁, m₂, rfl, ?_, ?_⟩
    · simpa using ihe he hm₁
    · simpa using ihf hf hm₂
  | alt e f ihe ihf =>
    obtain ⟨he, hf⟩ := Bool.and_eq_true_iff.mp he
    exact hm.imp (ihe he) (ihf hf)
  | repeated g least most e =>
    obtain ⟨rfl, c, rfl⟩ : g = .greedy ∧ ∃ c, e = .unit c := by
      cases g <;> cases e <;> simp_all [isSteady]
    exact hm
  | group | atomic | ahead | behind | back | ifGroup => simp [isSteady] at he

/-- So it is found there as well. -/
theorem isFoundIn_setApart (he : e.isSteady = true) (h : SetApart Point.isBlank b s) {t : Text}
    (ht : e.isFoundIn t = true) : e.isFoundIn (b ++ (t ++ s)) = true := by
  have hplain := isPlain_of_isSteady he
  obtain ⟨a, m, r, rfl, hm⟩ := (isFoundIn_iff hplain).mp ht
  exact (isFoundIn_iff hplain).mpr ⟨b ++ a, m, r ++ s, by simp, hm.setApart he h⟩

/-- A word matches itself. -/
theorem matches_word_iff (w : String) : (word w).Matches a m r ↔ m = Text.ofString w := by
  have hlist (cs : List Char) (a m r : Text) :
      (cs.foldr (fun c e => seq (unit (.of c)) e) empty).Matches a m r ↔ m = cs.map .scalar := by
    induction cs generalizing a m with
    | nil => exact Iff.rfl
    | cons c cs ih =>
      have hunit (p : Point) : (Class.of c).holds p = true ↔ p = .scalar c := by
        have hval : p.val = c.toNat ↔ p = .scalar c :=
          ⟨fun h => Point.val_injective h, fun h => h ▸ rfl⟩
        simp [Class.of, Class.holds, Member.holds, hval]
      simp only [List.foldr_cons, Matches, ih, hunit, List.map_cons]
      constructor
      · rintro ⟨_, _, rfl, ⟨p, rfl, rfl⟩, rfl⟩
        rfl
      · rintro rfl
        exact ⟨[.scalar c], _, rfl, ⟨_, rfl, rfl⟩, rfl⟩
  exact hlist w.toList a m r

end Expr

end Pattern

open Text

/-! ## The bundled rules -/

namespace Bundled

open Pattern

/-- The code points besides blanks behind which a command may begin. -/
def separators : List Point := [.scalar ';', .scalar '|', .scalar '&']

/-- A blank is what the class of blanks holds. -/
theorem holds_blank_iff (p : Point) :
    (Class.ofCategory .space).holds p = true ↔ p.isBlank = true := by
  simp [Class.ofCategory, Class.holds, Member.holds, Category.holds, Fold.small]

/-- What may stand before the name of the small shell: a blank or a separator. -/
theorem holds_separator_iff (p : Point) :
    Class.holds ⟨false, .exact, [.category .space false false, .point 59, .point 124, .point 38]⟩
      p = true ↔ p.isBlank = true ∨ p ∈ separators := by
  have hpoint (c : Char) : p.val = c.toNat ↔ p = .scalar c :=
    ⟨fun h => Point.val_injective h, fun h => h ▸ rfl⟩
  have hsemicolon := hpoint ';'
  have hbar := hpoint '|'
  have hand := hpoint '&'
  simp only [Char.reduceToNat] at hsemicolon hbar hand
  simp [Class.holds, Member.holds, Category.holds, Fold.small, separators, hsemicolon, hbar, hand]

/-- The rule for the small shell is about a command exactly if the name of the shell stands in it by
itself: at the start or behind a blank or a separator, and at the end or before a blank. -/
theorem appliesTo_sh_iff (t : Text) : sh.appliesTo t = true ↔
    ∃ a r, t = a ++ (("sh" : Text) ++ r) ∧
      (∀ p ∈ a.getLast?, p.isBlank = true ∨ p ∈ separators) ∧
      ∀ p ∈ r.head?, p.isBlank = true := by
  have hfeed : (Point.scalar '\n').isBlank = true := by decide
  unfold CommandRule.appliesTo
  rw [Expr.isFoundIn_iff (by decide)]
  simp only [sh, Expr.all, List.foldr_cons, List.foldr_nil, blank, Expr.Matches,
    Expr.matches_word_iff, holds_separator_iff, holds_blank_iff, Anchor.holds, State.before_between,
    State.after_between, Bool.or_eq_true, List.isEmpty_iff, beq_iff_eq, List.head?_reverse,
    List.reverse_eq_nil_iff]
  constructor
  · rintro ⟨a, _, r, rfl, b, _, rfl, hbefore, _, _, rfl, rfl, _, _, rfl,
      ⟨rfl, m, r', hr, hafter⟩, rfl⟩
    obtain rfl : r = m ++ r' := hr
    refine ⟨a ++ b, m ++ r', by simp, fun p hp => ?_, fun p hp => ?_⟩
    · rcases hbefore with ⟨rfl, rfl | hline⟩ | ⟨q, rfl, hq⟩
      · cases hp
      · rw [List.append_nil, hline] at hp
        cases hp
        exact .inl hfeed
      · obtain rfl : q = p := by simpa using hp
        exact hq
    · rcases hafter with ⟨q, rfl, hq⟩ | ⟨rfl, rfl | hline⟩
      · cases hp
        exact hq
      · cases hp
      · rw [List.nil_append, hline] at hp
        cases hp
        exact hfeed
  · rintro ⟨a, r, rfl, ha, hr⟩
    have hafter : ∃ m r', r = m ++ r' ∧ ((∃ p, m = [p] ∧ p.isBlank = true) ∨
        m = [] ∧ (r' = [] ∨ r'.head? = some (.scalar '\n'))) := by
      cases r with
      | nil => exact ⟨[], [], rfl, .inr ⟨rfl, .inl rfl⟩⟩
      | cons p r => exact ⟨[p], r, rfl, .inl ⟨p, rfl, hr p rfl⟩⟩
    -- The name of the shell and the condition on what follows are matched alike in both cases.
    rcases a.eq_nil_or_concat' with rfl | ⟨a, q, rfl⟩
    · exact ⟨[], ofString "sh", r, rfl, [], _, rfl, .inl ⟨rfl, .inl rfl⟩,
        ofString "sh", [], (List.append_nil _).symm, rfl, [], [], rfl, ⟨rfl, hafter⟩, rfl⟩
    · exact ⟨a, q :: ofString "sh", r, by simp, [q], _, rfl, .inr ⟨q, rfl, ha q (by simp)⟩,
        ofString "sh", [], (List.append_nil _).symm, rfl, [], [], rfl, ⟨rfl, hafter⟩, rfl⟩

/-- A rule that is about a command is about a longer one in which that command is set apart by
blanks. -/
theorem appliesTo_setApart {rule : CommandRule} (hrule : rule ∈ tables.commands) {a c r : Text}
    (h : SetApart Point.isBlank a r) (hc : rule.appliesTo c = true) :
    rule.appliesTo (a ++ (c ++ r)) = true := by
  have hsteady (hs : rule.expr.isSteady = true) : rule.appliesTo (a ++ (c ++ r)) = true :=
    Expr.isFoundIn_setApart hs h hc
  simp only [tables, List.mem_cons, List.not_mem_nil, or_false] at hrule
  rcases hrule with rfl | rfl | rfl | rfl | rfl | rfl | rfl
  case inr.inr.inr.inr.inr.inl =>
    obtain ⟨b, s, rfl, hb, hs⟩ := (appliesTo_sh_iff _).mp hc
    refine (appliesTo_sh_iff _).mpr ⟨a ++ b, s ++ r, by simp, fun p hp => ?_, fun p hp => ?_⟩
    · cases hlast : b.getLast? with
      | some q =>
        obtain rfl : q = p := by simpa [hlast] using hp
        exact hb q hlast
      | none => exact .inl (h.left p (by simpa [hlast] using hp))
    · cases s with
      | cons q s => exact hs p hp
      | nil => exact h.right p hp
  all_goals exact hsteady (by decide)

/-- Of two bundled rules the one that is tried first is as severe as the other. -/
theorem pairwise_severity : tables.commands.Pairwise fun rule rule' =>
    ∀ t, rule'.template.impact.on t ≤ rule.template.impact.on t := by
  have htemplates : (tables.commands.map (·.template)).Pairwise fun i j =>
      ∀ t ∈ Target.all, j.impact.on t ≤ i.impact.on t := by
    decide
  exact (List.pairwise_map.mp htemplates).imp fun h t => h t (Target.mem_all t)

/-- No bundled rule is about nothing. -/
theorem appliesTo_nil {rule : CommandRule} (hrule : rule ∈ tables.commands) :
    rule.appliesTo [] = false := by
  have hall : ∀ e ∈ tables.commands.map (·.expr), e.isFoundIn [] = false := by decide
  exact hall rule.expr (List.mem_map_of_mem hrule)

end Bundled

namespace RuleTables

/-- A command has a class that is as severe as an impact on every surface. -/
def Restricts (rules : RuleTables) (c : Text) (i : Impact) : Prop :=
  ∃ k, rules.classifyCommand c = some k ∧ ∀ t, i.on t ≤ k.impact.on t

variable {rules : RuleTables} {c : Text}

/-- A class is that of a rule that is about the command. -/
theorem exists_rule_of_classifyCommand {k : Classification} (h : rules.classifyCommand c = some k) :
    ∃ rule ∈ rules.commands, rule.appliesTo c = true ∧ rule.template.impact = k.impact := by
  unfold classifyCommand at h
  split at h
  · cases h
  · obtain ⟨rule, hrule, rfl⟩ := Option.map_eq_some_iff.mp h
    have happlies := List.find?_some hrule
    exact ⟨rule, List.mem_of_find?_eq_some hrule, happlies, rfl⟩

/-- If the rules are in the order of their severity, then a command is restricted as much as by any
rule that is about it. -/
theorem restricts_of_appliesTo
    (hsorted : rules.commands.Pairwise fun rule rule' =>
      ∀ t, rule'.template.impact.on t ≤ rule.template.impact.on t)
    (hc : c ≠ []) {rule : CommandRule} (hrule : rule ∈ rules.commands)
    (h : rule.appliesTo c = true) : rules.Restricts c rule.template.impact := by
  obtain ⟨first, hfirst⟩ : ∃ first, rules.commands.find? (·.appliesTo c) = some first :=
    Option.isSome_iff_exists.mp (List.find?_isSome.mpr ⟨rule, hrule, h⟩)
  refine ⟨⟨first.signal, first.template.impact⟩, ?_, fun t => ?_⟩
  · rw [classifyCommand, if_neg (by simpa using hc), hfirst]
    rfl
  · obtain ⟨-, before, after, heq, hbefore⟩ := List.find?_eq_some_iff_append.mp hfirst
    rw [heq, List.mem_append, List.mem_cons] at hrule
    -- The rule is not among those that were tried before.
    rcases hrule with hrule | rfl | hrule
    · have hnot := hbefore rule hrule
      rw [h] at hnot
      cases hnot
    · exact Verdict.le_refl _
    · rw [heq] at hsorted
      exact (List.pairwise_cons.mp (List.pairwise_append.mp hsorted).2.1).1 rule hrule t

end RuleTables

namespace Bundled

/-- A command is restricted as much as by any bundled rule that is about it. -/
theorem restricts_of_appliesTo {rule : CommandRule} (hrule : rule ∈ tables.commands) {c : Text}
    (h : rule.appliesTo c = true) : tables.Restricts c rule.template.impact := by
  refine RuleTables.restricts_of_appliesTo pairwise_severity ?_ hrule h
  rintro rfl
  simp [appliesTo_nil hrule] at h

/-- A command is restricted as much as a part of it that is set apart by blanks. -/
theorem restricts_setApart {a c r : Text} (h : SetApart Point.isBlank a r) {k : Classification}
    (hk : tables.classifyCommand c = some k) : tables.Restricts (a ++ (c ++ r)) k.impact := by
  obtain ⟨rule, hrule, happlies, himpact⟩ := RuleTables.exists_rule_of_classifyCommand hk
  rw [← himpact]
  exact restricts_of_appliesTo hrule (appliesTo_setApart hrule h happlies)

/-- A command is restricted as much as each of its lines, where lines end at line feeds alone or at
any line end. -/
theorem restricts_line {c line : Text} (hline : line ∈ c.rows ∨ line ∈ c.lines)
    {k : Classification} (hk : tables.classifyCommand line = some k) :
    tables.Restricts c k.impact := by
  have hapart : ∃ a r, c = a ++ (line ++ r) ∧ SetApart Point.isBlank a r := by
    rcases hline with hline | hline
    · obtain ⟨i, hi⟩ := List.mem_iff_getElem?.mp hline
      obtain ⟨a, r, hc, h, -⟩ := exists_field hi
      refine ⟨a, r, hc, h.mono fun p hp => ?_⟩
      rw [beq_iff_eq.mp hp]
      decide
    · obtain ⟨i, hi⟩ := List.mem_iff_getElem?.mp hline
      obtain ⟨a, r, hc, h, -⟩ := exists_line hi
      exact ⟨a, r, hc, h.mono fun p hp => Point.isBlank_of_endsLine hp⟩
  obtain ⟨a, r, rfl, h⟩ := hapart
  exact restricts_setApart h hk

end Bundled

/-- A text that separates commands: it begins and ends with a blank. -/
structure IsSeparator (s : Text) : Prop where
  /-- What it begins with. -/
  first : ∃ p ∈ s.head?, p.isBlank = true
  /-- What it ends with. -/
  last : ∃ p ∈ s.getLast?, p.isBlank = true

/-- Chaining commands softens nothing, with the bundled rules. A command is restricted on every
surface as much as by any rule that is about it. Two commands with a separator between them are
restricted as much as each of them is, and a command of several lines as much as each line. So the
evidence of a hook that runs such a command is as severe as any of its lines. -/
theorem chaining_softens_nothing :
    (∀ c, ∀ rule ∈ Bundled.tables.commands, rule.appliesTo c = true →
      Bundled.tables.Restricts c rule.template.impact) ∧
    (∀ c c' s k, IsSeparator s →
      Bundled.tables.classifyCommand c = some k ∨ Bundled.tables.classifyCommand c' = some k →
      Bundled.tables.Restricts (c ++ s ++ c') k.impact) ∧
    (∀ c line k, line ∈ c.rows ∨ line ∈ c.lines → Bundled.tables.classifyCommand line = some k →
      Bundled.tables.Restricts c k.impact) ∧
    ∀ file event handler c line k, Hooks.command? handler = some c →
      line ∈ c.rows ∨ line ∈ c.lines → Bundled.tables.classifyCommand line = some k →
      ∃ e, Hooks.handlerEvidence? Bundled.tables file event handler = some e ∧
        ∀ t, k.impact.on t ≤ e.impact.on t := by
  refine ⟨fun c rule hrule h => Bundled.restricts_of_appliesTo hrule h, fun c c' s k hs hk => ?_,
    fun c line k hline hk => Bundled.restricts_line hline hk,
    fun file event handler c line k hc hline hk => ?_⟩
  · obtain ⟨⟨p, hp, hpblank⟩, q, hq, hqblank⟩ := hs
    rcases hk with hk | hk
    · have hapart : SetApart Point.isBlank [] (s ++ c') := by
        refine ⟨by simp, fun x hx => ?_⟩
        obtain rfl : p = x := by simpa [Option.mem_def.mp hp] using hx
        exact hpblank
      simpa using Bundled.restricts_setApart hapart hk
    · have hapart : SetApart Point.isBlank (c ++ s) [] := by
        refine ⟨fun x hx => ?_, by simp⟩
        obtain rfl : q = x := by simpa [Option.mem_def.mp hq] using hx
        exact hqblank
      simpa using Bundled.restricts_setApart hapart hk
  · obtain ⟨k', hk', hle⟩ := Bundled.restricts_line hline hk
    refine ⟨⟨.hook, file, none, ("hook-command: " : Text) ++ k'.signal,
      event ++ " hook runs '" ++ k'.signal ++ "': " ++ c.take 120, k'.impact⟩, ?_, hle⟩
    unfold Hooks.handlerEvidence?
    rw [hc, Option.bind_eq_bind, Option.bind_some, hk']
    rfl

/-- A milder command in front hides no installation behind it. -/
theorem chaining_softens_nothing_installed :
    IsSeparator " && " ∧
    Bundled.tables.classifyCommand "pip install x" =
      some ⟨"pip install", Template.incompatibleDesktop.impact⟩ ∧
    Bundled.tables.Restricts (("node y" : Text) ++ (" && " : Text) ++ ("pip install x" : Text))
      Template.incompatibleDesktop.impact := by
  have hs : IsSeparator " && " := ⟨⟨_, rfl, by decide⟩, ⟨_, rfl, by decide⟩⟩
  have hk : Bundled.tables.classifyCommand ("pip install x" : Text) =
      some ⟨"pip install", Template.incompatibleDesktop.impact⟩ := by decide +kernel
  exact ⟨hs, hk, chaining_softens_nothing.2.1 ("node y" : Text) ("pip install x" : Text)
    (" && " : Text) ⟨"pip install", Template.incompatibleDesktop.impact⟩ hs (.inr hk)⟩

end SurfaceAudit
