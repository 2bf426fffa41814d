import SurfaceAudit.Proofs.PlainPaths

/-!
# Lines and rows

The lines of a text end where any of the code points does that ends a line, and its rows end at line
feeds alone. Both stand in the text between what ends them, and what stands before one tells its
number: as many lines come before it as there are line ends (`Text.exists_line`), and as many rows
as there are line feeds (`Text.exists_field`, `Text.exists_field_of_append`).
-/

namespace SurfaceAudit

/-- What is no blank ends no line. -/
theorem Point.endsLine_of_isBlank {p : Point} (h : p.isBlank = false) : p.endsLine = false := by
  simp only [isBlank, endsLine, Bool.or_eq_false_iff, Bool.and_eq_false_iff, beq_eq_false_iff_ne,
    decide_eq_false_iff_not] at h ⊢
  omega

/-- What ends a line is a blank. -/
theorem Point.isBlank_of_endsLine {p : Point} (h : p.endsLine = true) : p.isBlank = true := by
  by_contra hp
  simp [endsLine_of_isBlank (Bool.eq_false_iff.mpr hp)] at h

namespace Text

/-- Nothing in the text ends a line. -/
def IsUnbroken (t : Text) : Prop := ∀ p ∈ t, p.endsLine = false

instance (t : Text) : Decidable t.IsUnbroken := inferInstanceAs (Decidable (∀ p ∈ t, _))

/-- What stands between two texts is set apart by code points of a class: the first text ends with
one and the second begins with one, unless there is nothing. -/
structure SetApart (sep : Point → Bool) (a r : Text) : Prop where
  /-- What is before. -/
  left : ∀ p ∈ a.getLast?, sep p = true
  /-- What is after. -/
  right : ∀ p ∈ r.head?, sep p = true

namespace SetApart

variable {sep sep' : Point → Bool} {a r : Text}

/-- What is set apart by a class is set apart by a larger one. -/
theorem mono (h : SetApart sep a r) (hsep : ∀ p, sep p = true → sep' p = true) :
    SetApart sep' a r :=
  ⟨fun p hp => hsep p (h.left p hp), fun p hp => hsep p (h.right p hp)⟩

/-- So it is with more before a code point of the class. -/
theorem append_cons (h : SetApart sep a r) {c : Point} (hc : sep c = true) (b : Text) :
    SetApart sep (b ++ c :: a) r := by
  refine ⟨fun p hp => ?_, h.right⟩
  cases ha : a.getLast? with
  | none =>
    obtain rfl := List.getLast?_eq_none_iff.mp ha
    obtain rfl : c = p := by simpa using hp
    exact hc
  | some q =>
    obtain rfl : q = p := by simpa [List.getLast?_cons, ha] using hp
    exact h.left q ha

end SetApart

section Fields

variable {sep : Point → Bool}

/-- The first field of a text is the text, or goes up to a separator behind which the other fields
are. -/
theorem fields_cases (sep : Point → Bool) (t : Text) :
    (∀ p ∈ t, sep p = false) ∧ fields sep t = [t] ∨
      ∃ a c r, t = a ++ c :: r ∧ (∀ p ∈ a, sep p = false) ∧ sep c = true ∧
        fields sep t = a :: fields sep r := by
  cases h : t.find? sep with
  | none =>
    have hnone : ∀ p ∈ t, sep p = false := by simpa using h
    exact .inl ⟨hnone, fields_eq_singleton hnone⟩
  | some c =>
    obtain ⟨hc, a, r, rfl, ha⟩ := List.find?_eq_some_iff_append.mp h
    have ha : ∀ p ∈ a, sep p = false := by simpa using ha
    exact .inr ⟨a, c, r, rfl, ha, hc, by rw [fields_append hc, fields_eq_singleton ha]; rfl⟩

/-- A field of a text is set apart by separators, and as many separators are before it as there are
fields. -/
theorem exists_field {t f : Text} {i : Nat} (h : (fields sep t)[i]? = some f) :
    ∃ a r, t = a ++ (f ++ r) ∧ SetApart sep a r ∧ a.countP sep = i := by
  -- The first field is followed by a separator or by nothing; the others are fields of what
  -- follows.
  induction i generalizing t with
  | zero =>
    rcases fields_cases sep t with ⟨-, hf⟩ | ⟨a, c, r, rfl, -, hc, hf⟩
    · rw [hf] at h
      cases h
      exact ⟨[], [], by simp, ⟨by simp, by simp⟩, rfl⟩
    · rw [hf] at h
      cases h
      exact ⟨[], c :: r, rfl, ⟨by simp, by simpa using hc⟩, rfl⟩
  | succ i ih =>
    rcases fields_cases sep t with ⟨-, hf⟩ | ⟨a, c, r, rfl, ha, hc, hf⟩
    · rw [hf] at h
      cases h
    · rw [hf] at h
      obtain ⟨b, r', rfl, hapart, hcount⟩ := ih (by simpa using h)
      refine ⟨a ++ c :: b, r', by simp, hapart.append_cons hc a, ?_⟩
      rw [List.countP_append, List.countP_cons_of_pos hc, hcount,
        List.countP_eq_zero.mpr (by simpa using ha), Nat.zero_add]

/-- A part of a text without separators stands on the field that has as many before it as there are
separators before the part. -/
theorem exists_field_of_append (a r : Text) {m : Text} (hm : ∀ p ∈ m, sep p = false) :
    ∃ f, (fields sep (a ++ (m ++ r)))[a.countP sep]? = some f ∧ m <:+: f := by
  -- The induction is on the separators before the part, each of which ends one field.
  induction hn : a.countP sep generalizing a with
  | zero =>
    have ha : ∀ p ∈ a, sep p = false := by simpa using List.countP_eq_zero.mp hn
    rcases fields_cases sep r with ⟨hr, -⟩ | ⟨b, c, r, rfl, hb, hc, -⟩
    · refine ⟨a ++ (m ++ r), ?_, ⟨a, r, by simp⟩⟩
      rw [fields_eq_singleton (by simp only [List.forall_mem_append]; exact ⟨ha, hm, hr⟩)]
      rfl
    · refine ⟨a ++ (m ++ b), ?_, ⟨a, b, by simp⟩⟩
      have hsplit : a ++ (m ++ (b ++ c :: r)) = (a ++ (m ++ b)) ++ c :: r := by simp
      rw [hsplit, fields_append hc,
        fields_eq_singleton (by simp only [List.forall_mem_append]; exact ⟨ha, hm, hb⟩)]
      rfl
  | succ n ih =>
    rcases fields_cases sep a with ⟨ha, -⟩ | ⟨b, c, a, rfl, hb, hc, -⟩
    · rw [List.countP_eq_zero.mpr (by simpa using ha)] at hn
      cases hn
    · rw [List.countP_append, List.countP_cons_of_pos hc,
        List.countP_eq_zero.mpr (by simpa using hb)] at hn
      obtain ⟨f, hf, hmf⟩ := ih a (by omega)
      refine ⟨f, ?_, hmf⟩
      rw [List.append_assoc, List.cons_append, fields_append hc, fields_eq_singleton hb]
      simpa using hf

end Fields

section Lines

/-- The lines done come first. -/
theorem linesFrom_append (t line : Text) (done before : List Text) :
    linesFrom t line (done ++ before) = before.reverse ++ linesFrom t line done := by
  fun_induction linesFrom t line done with
  | case1 done => simp [linesFrom]
  | case2 line done hline => simp [linesFrom]
  | case3 r line done ih => exact ih
  | case4 c r line done hcrlf hc ih =>
    rw [linesFrom.eq_4 _ _ _ _ hcrlf, if_pos hc]
    exact ih
  | case5 c r line done hcrlf hc ih =>
    rw [linesFrom.eq_4 _ _ _ _ hcrlf, if_neg hc]
    exact ih

/-- A line that is done comes first. -/
theorem linesFrom_singleton (t line : Text) : linesFrom t [] [line] = line :: t.lines :=
  linesFrom_append t [] [] [line]

/-- What ends no line goes on with the line begun. -/
theorem IsUnbroken.linesFrom_append {a : Text} (h : a.IsUnbroken) (t line : Text)
    (done : List Text) : Text.linesFrom (a ++ t) line done =
      Text.linesFrom t (a.reverse ++ line) done := by
  induction a generalizing line with
  | nil => rfl
  | cons c a ih =>
    have hc : c.endsLine = false := h c List.mem_cons_self
    have hne : c ≠ .scalar '\r' := by
      rintro rfl
      exact absurd hc (by decide)
    rw [List.cons_append, Text.linesFrom, if_neg (by simp [hc]),
      ih fun p hp => h p (List.mem_cons_of_mem c hp)]
    · simp
    · rintro _ rfl
      exact absurd rfl hne

/-- A text is no line if it is empty, one line if nothing in it ends a line, and else its first line
goes up to a line end behind which the other lines are. -/
theorem lines_cases (t : Text) : t = [] ∧ t.lines = [] ∨ t.IsUnbroken ∧ t.lines = [t] ∨
    ∃ a c e r, t = a ++ (e ++ c :: r) ∧ a.IsUnbroken ∧ c.endsLine = true ∧
      (e = [] ∨ e = [.scalar '\r']) ∧ t.lines = a :: lines r := by
  cases h : t.find? Point.endsLine with
  | none =>
    have hnone : t.IsUnbroken := by simpa [IsUnbroken] using h
    cases t with
    | nil => exact .inl ⟨rfl, rfl⟩
    | cons p t =>
      have hlines := hnone.linesFrom_append [] [] []
      rw [List.append_nil, List.append_nil] at hlines
      exact .inr (.inl ⟨hnone, by simpa [lines, linesFrom] using hlines⟩)
  | some c =>
    obtain ⟨hc, a, r, rfl, ha⟩ := List.find?_eq_some_iff_append.mp h
    have ha : IsUnbroken a := by simpa [IsUnbroken] using ha
    have hlines := ha.linesFrom_append (c :: r) [] []
    refine .inr (.inr ?_)
    -- A carriage return and a line feed are one line end, so what comes behind the first of them
    -- matters.
    by_cases hcrlf : c = .scalar '\r' ∧ ∃ r', r = .scalar '\n' :: r'
    · obtain ⟨rfl, r, rfl⟩ := hcrlf
      refine ⟨a, .scalar '\n', [.scalar '\r'], r, rfl, ha, by decide, .inr rfl, ?_⟩
      rw [lines, hlines, linesFrom, List.append_nil, List.reverse_reverse, linesFrom_singleton]
    · refine ⟨a, c, [], r, rfl, ha, hc, .inl rfl, ?_⟩
      rw [lines, hlines, linesFrom, if_pos hc, List.append_nil, List.reverse_reverse,
        linesFrom_singleton]
      rintro r' rfl rfl
      exact hcrlf ⟨rfl, r', rfl⟩

/-- A line of a text is set apart by line ends and holds none, and if no line ends with two code
points, as many line ends are before it as there are lines. -/
theorem exists_line {t l : Text} {i : Nat} (h : t.lines[i]? = some l) :
    ∃ a r, t = a ++ (l ++ r) ∧ SetApart Point.endsLine a r ∧ l.IsUnbroken ∧
      (.scalar '\r' ∉ t → a.countP Point.endsLine = i) := by
  induction i generalizing t with
  | zero =>
    rcases lines_cases t with ⟨-, hl⟩ | ⟨ht, hl⟩ | ⟨a, c, e, r, rfl, ha, hc, he, hl⟩
    · simp [hl] at h
    · rw [hl] at h
      cases h
      exact ⟨[], [], by simp, ⟨by simp, by simp⟩, ht, fun _ => rfl⟩
    · rw [hl] at h
      cases h
      refine ⟨[], e ++ c :: r, rfl, ⟨by simp, ?_⟩, ha, fun _ => rfl⟩
      rcases he with rfl | rfl
      · simpa using hc
      · simp [Point.endsLine, Point.val]
  | succ i ih =>
    rcases lines_cases t with ⟨-, hl⟩ | ⟨ht, hl⟩ | ⟨a, c, e, r, rfl, ha, hc, he, hl⟩
    · simp [hl] at h
    · simp [hl] at h
    · rw [hl] at h
      obtain ⟨b, r', rfl, hapart, hunbroken, hcount⟩ := ih (by simpa using h)
      refine ⟨a ++ e ++ c :: b, r', by simp, hapart.append_cons hc (a ++ e), hunbroken,
        fun hr => ?_⟩
      -- A line end of two code points would count twice, which is why there is to be no carriage
      -- return.
      rcases he with rfl | rfl
      · rw [List.append_nil, List.countP_append, List.countP_cons_of_pos hc,
          hcount fun hb => hr (by simp only [List.mem_append, List.mem_cons] at hb ⊢; tauto),
          List.countP_eq_zero.mpr (by simpa [IsUnbroken] using ha), Nat.zero_add]
      · exact absurd (by simp) hr

end Lines

end Text

end SurfaceAudit
