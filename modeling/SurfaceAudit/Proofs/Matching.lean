import SurfaceAudit.Pattern.Match
import Mathlib.Data.List.Basic
import Mathlib.Data.List.TakeWhile

/-!
# What expressions match

The matcher tries the ways of an expression one after the other. For expressions that keep no text
and give up no way (`Expr.isPlain`) it does not matter in which order: such an expression matches a
text between two others or it does not (`Expr.Matches`), and it is found in a text exactly if it
matches some part of it (`Expr.isFoundIn_iff`).
-/

namespace SurfaceAudit.Pattern

/-- The place between two texts, with nothing kept. -/
def State.between (a r : Text) : State := ⟨a.reverse, r, a.length, []⟩

namespace State

variable {a r : Text} {p : Point}

/-- Before the place is the first text, seen backwards. -/
@[simp] theorem before_between : (between a r).before = a.reverse := rfl

/-- After the place is the second text. -/
@[simp] theorem after_between : (between a r).after = r := rfl

/-- A step forward takes a code point over to the first text. -/
@[simp] theorem forward_between : (between a (p :: r)).forward = between (a ++ [p]) r := by
  simp [between, forward]

/-- A step backward takes a code point over to the second text. -/
@[simp] theorem backward_between : (between (a ++ [p]) r).backward = between a (p :: r) := by
  simp [between, backward]

end State

namespace Class

variable {c : Class} {most : Option Nat} {k : Rest} {a m r : Text}

/-- The place after a text that comes next. -/
theorem skip_between : skip m.length (.between a (m ++ r)) = .between (a ++ m) r := by
  induction m generalizing a with
  | nil => simp [skip]
  | cons p m ih => simp [skip, ih]

/-- What is counted is a text of the class that comes next and is not too long. -/
theorem exists_countNext (c : Class) (most : Option Nat) (t : Text) : ∃ m r, t = m ++ r ∧
    m.length = c.countNext most t ∧ (∀ p ∈ m, c.holds p = true) ∧ ∀ n ∈ most, m.length ≤ n := by
  cases most with
  | none =>
    exact ⟨t.takeWhile c.holds, t.dropWhile c.holds, List.takeWhile_append_dropWhile.symm, rfl,
      fun p hp => List.mem_takeWhile_imp hp, by simp⟩
  | some n =>
    obtain ⟨r, hr⟩ := (List.takeWhile_prefix c.holds).trans (List.take_prefix n t)
    refine ⟨(t.take n).takeWhile c.holds, r, hr.symm, rfl,
      fun p hp => List.mem_takeWhile_imp hp, ?_⟩
    rintro _ ⟨⟩
    exact ((List.takeWhile_prefix c.holds).length_le).trans (List.length_take_le n t)

/-- No text of the class that comes next is longer than what is counted, unless it is too long. -/
theorem length_le_countNext (hm : ∀ p ∈ m, c.holds p = true) (hmost : ∀ n ∈ most, m.length ≤ n) :
    m.length ≤ c.countNext most (m ++ r) := by
  cases most with
  | none =>
    rw [countNext, List.takeWhile_append_of_pos hm, List.length_append]
    exact Nat.le_add_right _ _
  | some n =>
    rw [countNext, List.take_append, List.take_of_length_le (hmost n rfl),
      List.takeWhile_append_of_pos hm, List.length_append]
    exact Nat.le_add_right _ _

/-- Going back from behind a text ends after a first part of it. -/
theorem exists_of_tryBackward {n : Nat} {u : State}
    (h : tryBackward k n (.between (a ++ m) r) = some u) (hn : n ≤ m.length) :
    ∃ m₁ m₂, m = m₁ ++ m₂ ∧ m₂.length ≤ n ∧ k (.between (a ++ m₁) (m₂ ++ r)) = some u := by
  induction n generalizing m r with
  | zero => exact ⟨m, [], by simp, Nat.le_refl 0, h⟩
  | succ n ih =>
    rw [tryBackward] at h
    split at h
    · rename_i hk
      exact ⟨m, [], by simp, Nat.zero_le _, hk.trans h⟩
    · obtain rfl | ⟨m, p, rfl⟩ := m.eq_nil_or_concat'
      · simp at hn
      · rw [← List.append_assoc, State.backward_between] at h
        obtain ⟨m₁, m₂, rfl, hle, hk⟩ := ih h (by simpa using hn)
        exact ⟨m₁, m₂ ++ [p], by simp, by simpa using hle, by simpa using hk⟩

/-- Going back from behind a text finds what can be found after a first part of it. -/
theorem isSome_tryBackward {n : Nat} (hm : m.length ≤ n)
    (h : (k (.between a (m ++ r))).isSome = true) :
    (tryBackward k n (.between (a ++ m) r)).isSome = true := by
  induction n generalizing m r with
  | zero =>
    obtain rfl := List.length_eq_zero_iff.mp (Nat.le_zero.mp hm)
    simpa [tryBackward] using h
  | succ n ih =>
    rw [tryBackward]
    split
    · rfl
    · rename_i hnone
      obtain rfl | ⟨m, p, rfl⟩ := m.eq_nil_or_concat'
      · simp_all
      · rw [← List.append_assoc, State.backward_between]
        exact ih (by simpa using hm) (by simpa using h)

end Class

namespace Expr

/-- The expression keeps no text, looks at none that is kept, and gives up no way: what repeats is a
class, as often as possible, and what is looked ahead for has to be there. -/
def isPlain : Expr → Bool
  | .empty | .unit _ | .anchor _ => true
  | .seq e f | .alt e f => e.isPlain && f.isPlain
  | .repeated .greedy _ _ (.unit _) => true
  | .ahead true e => e.isPlain
  | _ => false

/-- A plain expression matches a text that stands after one text and before another. -/
def Matches : Expr → Text → Text → Text → Prop
  | .empty, _, m, _ => m = []
  | .unit c, _, m, _ => ∃ p, m = [p] ∧ c.holds p = true
  | .anchor x, a, m, r => m = [] ∧ x.holds (.between a r) = true
  | .seq e f, a, m, r =>
    ∃ m₁ m₂, m = m₁ ++ m₂ ∧ e.Matches a m₁ (m₂ ++ r) ∧ f.Matches (a ++ m₁) m₂ r
  | .alt e f, a, m, r => e.Matches a m r ∨ f.Matches a m r
  | .repeated .greedy least most (.unit c), _, m, _ =>
    least ≤ m.length ∧ (∀ n ∈ most, m.length ≤ n) ∧ ∀ p ∈ m, c.holds p = true
  | .ahead true e, a, m, r => m = [] ∧ ∃ m' r', r = m' ++ r' ∧ e.Matches a m' r'
  | _, _, _, _ => False

variable {e : Expr} {k : Rest} {a m r : Text}

/-- What the matcher finds begins with a text that the expression matches. -/
theorem exists_matches_of_run (he : e.isPlain = true) {t : Text} {u : State}
    (h : e.run k (.between a t) = some u) :
    ∃ m r, t = m ++ r ∧ e.Matches a m r ∧ k (.between (a ++ m) r) = some u := by
  -- The induction is for any continuation: that of a sequence is the run of its second part.
  induction e generalizing k a t u with
  | empty => exact ⟨[], t, rfl, rfl, by simpa [run] using h⟩
  | unit c =>
    cases t with
    | nil => cases h
    | cons p t =>
      change (if c.holds p = true then k (State.between a (p :: t)).forward else none) = some u at h
      split at h
      · rename_i hp
        exact ⟨[p], t, rfl, ⟨p, rfl, hp⟩, by simpa using h⟩
      · cases h
  | anchor x =>
    change (if x.holds (.between a t) = true then k (.between a t) else none) = some u at h
    split at h
    · rename_i hx
      exact ⟨[], t, rfl, ⟨rfl, hx⟩, by simpa using h⟩
    · cases h
  | seq e f ihe ihf =>
    obtain ⟨he, hf⟩ := Bool.and_eq_true_iff.mp he
    obtain ⟨m₁, t₁, rfl, hm₁, h⟩ := ihe he h
    obtain ⟨m₂, t₂, rfl, hm₂, h⟩ := ihf hf h
    exact ⟨m₁ ++ m₂, t₂, by simp, ⟨m₁, m₂, rfl, hm₁, hm₂⟩, by simpa using h⟩
  | alt e f ihe ihf =>
    obtain ⟨he, hf⟩ := Bool.and_eq_true_iff.mp he
    simp only [run] at h
    split at h
    · rename_i v hv
      obtain ⟨m, r, ht, hm, hk⟩ := ihe he (hv.trans h)
      exact ⟨m, r, ht, .inl hm, hk⟩
    · obtain ⟨m, r, ht, hm, hk⟩ := ihf hf h
      exact ⟨m, r, ht, .inr hm, hk⟩
  | repeated g least most e =>
    obtain ⟨rfl, c, rfl⟩ : g = .greedy ∧ ∃ c, e = .unit c := by
      cases g <;> cases e <;> simp_all [isPlain]
    change c.repeated .greedy least most k (.between a t) = some u at h
    obtain ⟨m, r, rfl, hlength, hm, hmost⟩ := c.exists_countNext most t
    simp only [Class.repeated, State.after_between, ← hlength, Class.skip_between] at h
    split at h
    · cases h
    · obtain ⟨m₁, m₂, rfl, hle, hk⟩ := Class.exists_of_tryBackward h (Nat.sub_le _ _)
      rw [List.length_append] at hmost hle
      refine ⟨m₁, m₂ ++ r, by simp, ⟨by simp at *; omega, fun n hn => ?_, fun p hp => ?_⟩, hk⟩
      · have := hmost n hn
        omega
      · exact hm p (List.mem_append_left m₂ hp)
  | ahead positive e ih =>
    cases positive with
    | false => cases he
    | true =>
      obtain ⟨v, hv, h⟩ := Option.bind_eq_some_iff.mp h
      obtain ⟨m, r, rfl, hm, hk⟩ := ih he hv
      cases hk
      exact ⟨[], m ++ r, rfl, ⟨rfl, m, r, rfl, hm⟩, by simpa [State.between] using h⟩
  | group | atomic | behind | back | ifGroup => cases he

/-- The matcher goes on after a text that the expression matches, if it can. -/
theorem isSome_run_of_matches (he : e.isPlain = true) (hm : e.Matches a m r)
    (hk : (k (.between (a ++ m) r)).isSome = true) :
    (e.run k (.between a (m ++ r))).isSome = true := by
  induction e generalizing k a m r with
  | empty =>
    obtain rfl : m = [] := hm
    simpa [run] using hk
  | unit c =>
    obtain ⟨p, rfl, hp⟩ := hm
    simpa [run, hp] using hk
  | anchor x =>
    obtain ⟨rfl, hx⟩ := hm
    simpa [run, hx] using hk
  | seq e f ihe ihf =>
    obtain ⟨he, hf⟩ := Bool.and_eq_true_iff.mp he
    obtain ⟨m₁, m₂, rfl, hm₁, hm₂⟩ := hm
    rw [run, List.append_assoc]
    exact ihe he hm₁ (ihf hf hm₂ (by simpa using hk))
  | alt e f ihe ihf =>
    obtain ⟨he, hf⟩ := Bool.and_eq_true_iff.mp he
    simp only [run]
    split
    · rfl
    · rename_i hnone
      rcases hm with hm | hm
      · have := ihe he hm hk
        simp [hnone] at this
      · exact ihf hf hm hk
  | repeated g least most e =>
    obtain ⟨rfl, c, rfl⟩ : g = .greedy ∧ ∃ c, e = .unit c := by
      cases g <;> cases e <;> simp_all [isPlain]
    obtain ⟨hleast, hmost, hm⟩ := hm
    change (c.repeated .greedy least most k (.between a (m ++ r))).isSome = true
    -- The longest text of the class begins with this one.
    obtain ⟨m', r', heq, hlength, -, -⟩ := c.exists_countNext most (m ++ r)
    have hle : m.length ≤ m'.length := hlength ▸ Class.length_le_countNext hm hmost
    obtain ⟨m₂, rfl⟩ : m <+: m' :=
      List.prefix_of_prefix_length_le ⟨r, rfl⟩ ⟨r', heq.symm⟩ hle
    rw [List.append_assoc, List.append_cancel_left_eq] at heq
    subst heq
    rw [← List.append_assoc] at hlength ⊢
    simp only [Class.repeated, State.after_between, ← hlength, Class.skip_between]
    rw [if_neg (by rw [List.length_append]; omega), ← List.append_assoc]
    exact Class.isSome_tryBackward (by rw [List.length_append]; omega) hk
  | ahead positive e ih =>
    cases positive with
    | false => cases he
    | true =>
      obtain ⟨rfl, m', r', rfl, hm⟩ := hm
      have he : e.isPlain = true := he
      obtain ⟨v, hv⟩ := Option.isSome_iff_exists.mp (ih (k := some) he hm rfl)
      -- Nothing is kept, so that the place is the one before looking ahead.
      obtain ⟨m₂, r₂, -, -, hstop⟩ := exists_matches_of_run he hv
      cases hstop
      rw [List.append_nil] at hk
      simp only [run, List.nil_append, hv, Option.bind_some]
      exact hk
  | group | atomic | behind | back | ifGroup => cases he

/-- A search finds a match that begins where it stands, or after some of what comes next. -/
theorem isSome_searchFrom_iff (he : e.isPlain = true) (a t : Text) :
    (e.searchFrom t (.between a t)).isSome = true ↔
      ∃ b m r, t = b ++ (m ++ r) ∧ e.Matches (a ++ b) m r := by
  have hrun (a t : Text) : (e.run some (.between a t)).isSome = true ↔
      ∃ m r, t = m ++ r ∧ e.Matches a m r := by
    constructor
    · intro h
      obtain ⟨u, hu⟩ := Option.isSome_iff_exists.mp h
      obtain ⟨m, r, ht, hm, -⟩ := exists_matches_of_run he hu
      exact ⟨m, r, ht, hm⟩
    · rintro ⟨m, r, rfl, hm⟩
      exact isSome_run_of_matches he hm rfl
  induction t generalizing a with
  | nil =>
    rw [searchFrom, hrun]
    constructor
    · rintro ⟨m, r, ht, hm⟩
      exact ⟨[], m, r, ht, by simpa using hm⟩
    · rintro ⟨b, m, r, ht, hm⟩
      obtain ⟨rfl, ht'⟩ := List.append_eq_nil_iff.mp ht.symm
      exact ⟨m, r, ht, by simpa using hm⟩
  | cons p t ih =>
    -- There is a match here or behind the next code point.
    have hsplit : (e.searchFrom (p :: t) (.between a (p :: t))).isSome = true ↔
        (e.run some (.between a (p :: t))).isSome = true ∨
          (e.searchFrom t (.between (a ++ [p]) t)).isSome = true := by
      rw [searchFrom, State.forward_between]
      split <;> simp_all
    refine (hsplit.trans (or_congr (hrun a (p :: t)) (ih (a ++ [p])))).trans ?_
    constructor
    · rintro (⟨m, r, ht, hm⟩ | ⟨b, m, r, rfl, hm⟩)
      · exact ⟨[], m, r, ht, by simpa using hm⟩
      · exact ⟨p :: b, m, r, rfl, by simpa using hm⟩
    · rintro ⟨b, m, r, ht, hm⟩
      cases b with
      | nil => exact .inl ⟨m, r, ht, by simpa using hm⟩
      | cons q b =>
        obtain ⟨rfl, rfl⟩ := List.cons.inj ht
        exact .inr ⟨b, m, r, rfl, by simpa using hm⟩

/-- A plain expression is found in a text exactly if it matches a part of it. -/
theorem isFoundIn_iff (he : e.isPlain = true) {t : Text} :
    e.isFoundIn t = true ↔ ∃ a m r, t = a ++ (m ++ r) ∧ e.Matches a m r := by
  simpa [isFoundIn, State.start, State.between] using isSome_searchFrom_iff he [] t

end Expr

end SurfaceAudit.Pattern
