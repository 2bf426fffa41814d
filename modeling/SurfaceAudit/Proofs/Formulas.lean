import SurfaceAudit.Proofs.Tables

/-!
# No cell is a formula

A spreadsheet takes a cell for a formula by its first code point. The text of a cell from a plugin
begins with no blank, since its blanks are collapsed first, and what cuts it keeps its beginning. So
it is enough to look at the first code point at the end, and a tab in front of it is one that was
put there (`Report.guards_defused`). The only other cell that could begin with a sign is the number
of a line (`cells_are_no_formulas`).
-/

namespace SurfaceAudit

namespace Text

/-- A text spells words, which are no blanks: it consists of them in order, with blanks around them
and one at least between two of them. -/
inductive Spells : List Text → Text → Prop
  /-- Nothing spells no words. -/
  | nil : Spells [] []
  /-- A blank is no part of a word. -/
  | blank {p : Point} {ws : List Text} {t : Text} (blank : p.isBlank = true) (rest : Spells ws t) :
    Spells ws (p :: t)
  /-- A word goes up to the next blank. -/
  | word {w : Text} {ws : List Text} {t : Text} (ne_nil : w ≠ [])
    (solid : ∀ p ∈ w, p.isBlank = false) (whole : ∀ p ∈ t.head?, p.isBlank = true)
    (rest : Spells ws t) : Spells (w :: ws) (w ++ t)

/-- The words on both sides of a blank. -/
theorem words_append {c : Point} (hc : c.isBlank = true) (s t : Text) :
    words (s ++ c :: t) = words s ++ words t := by
  unfold words
  rw [fields_append hc, List.filter_append]

/-- A blank in front is no part of a word. -/
theorem words_cons {c : Point} (hc : c.isBlank = true) (t : Text) : words (c :: t) = words t :=
  words_append hc [] t

/-- A text without blanks is one word. -/
theorem words_eq_singleton {w : Text} (hne : w ≠ []) (hw : ∀ p ∈ w, p.isBlank = false) :
    words w = [w] := by
  unfold words
  rw [fields_eq_singleton hw]
  simpa using hne

/-- What a text spells are its words. -/
theorem Spells.words_eq {ws : List Text} {t : Text} (h : Spells ws t) : words t = ws := by
  induction h with
  | nil => rfl
  | blank hblank _ ih => rw [words_cons hblank, ih]
  | @word w ws t hne hsolid hwhole _ ih =>
    cases t with
    | nil =>
      rw [List.append_nil, words_eq_singleton hne hsolid, ← ih]
      rfl
    | cons p t =>
      have hp := hwhole p rfl
      rw [words_append hp, words_eq_singleton hne hsolid, ← ih, words_cons hp]
      rfl

/-- A text spells its words. -/
theorem spells_words (t : Text) : Spells t.words t := by
  suffices h : ∃ ws, Spells ws t by
    obtain ⟨ws, h⟩ := h
    rwa [h.words_eq]
  induction t with
  | nil => exact ⟨[], .nil⟩
  | cons p t ih =>
    obtain ⟨ws, h⟩ := ih
    by_cases hp : p.isBlank = true
    · exact ⟨ws, .blank hp h⟩
    · -- The code point is a word by itself, or goes before the word that comes next.
      have hsolid {w : Text} (hw : ∀ q ∈ w, q.isBlank = false) : ∀ q ∈ p :: w, q.isBlank = false :=
        List.forall_mem_cons.mpr ⟨by simpa using hp, hw⟩
      cases h with
      | nil => exact ⟨[[p]], .word (w := [p]) (by simp) (hsolid (by simp)) (by simp) .nil⟩
      | blank hblank rest =>
        exact ⟨[p] :: ws, .word (w := [p]) (by simp) (hsolid (by simp)) (by simpa using hblank)
          (.blank hblank rest)⟩
      | @word w ws t hne hw hwhole rest =>
        exact ⟨(p :: w) :: ws, .word (w := p :: w) (by simp) (hsolid hw) hwhole rest⟩

end Text

namespace Report

/-! ## What cells hold -/

/-- The code points with which formulas begin, and the carriage return. -/
def signs : List Point := [.scalar '=', .scalar '+', .scalar '-', .scalar '@', .scalar '\r']

/-- A cell is no formula: it does not begin with a sign, and if it begins with a tab then a sign is
behind the tab. -/
structure IsHarmless (cell : Text) : Prop where
  /-- No sign is in front. -/
  head : ∀ p ∈ cell.head?, p ∉ signs
  /-- A tab is in front of a sign only. -/
  tab : ∀ t, cell = .scalar '\t' :: t → ∃ p ∈ t.head?, p ∈ signs

/-- A cell holds a text: as it is, or behind a tab if it begins with a sign. -/
inductive Guards (t : Text) : Text → Prop
  /-- The text begins with no sign. -/
  | plain (h : ∀ p ∈ t.head?, p ∉ signs) : Guards t t
  /-- The text begins with a sign. -/
  | tab (h : ∃ p ∈ t.head?, p ∈ signs) : Guards t (.scalar '\t' :: t)

/-- A text is another one with its blanks collapsed: it has the same words, and between two of them
stands one blank. -/
def Collapses (s t : Text) : Prop := ∃ ws, Text.Spells ws s ∧ t = Text.join " " ws

/-- A text is another one, or if that is longer than a limit, its beginning with three dots, which
is just as long as the limit. -/
structure Shortens (limit : Nat) (s t : Text) : Prop where
  /-- A text of limited length stays. -/
  same : s.length ≤ limit → t = s
  /-- A longer one is cut. -/
  cut : limit < s.length → t = s.take (limit - 3) ++ "..." ∧ t.length = limit

/-- A row holds a piece of evidence of a plugin. -/
structure IsRowOf (plugin : Text) (e : Evidence) (row : List Text) : Prop where
  /-- It has a cell for each column. -/
  length : row.length = columns.length
  /-- The name of the plugin, which is unknown if there is nothing but blanks in it. -/
  plugin : ∃ t, Collapses plugin t ∧
    Guards (if t = [] then "unknown" else t) (cellUnder "Plugin" row)
  /-- What kind of evidence it is. -/
  source : cellUnder "Source" row = e.source.name
  /-- The file. -/
  file : ∃ t, Collapses e.file t ∧ Guards t (cellUnder "File" row)
  /-- The number of the line, if there is one. -/
  line : cellUnder "Line" row = (e.line.map Text.ofInt).getD []
  /-- The signal, of limited length. -/
  signal : ∃ t u, Collapses e.signal t ∧ Shortens 200 t u ∧ Guards u (cellUnder "Signal" row)
  /-- The detail, of limited length. -/
  detail : ∃ t u, Collapses e.detail t ∧ Shortens 500 t u ∧ Guards u (cellUnder "Detail" row)
  /-- The verdicts. -/
  verdicts : ∀ t : Target, cellUnder t.name row = (e.impact.on t).name

/-- Joined words begin with no blank. -/
theorem isBlank_of_mem_head?_collapsed {t : Text} {p : Point} (h : p ∈ (collapsed t).head?) :
    p.isBlank = false := by
  -- A word has a first code point, and it is not blank.
  have hsolid : ∀ w ∈ t.words, w ≠ [] ∧ ∀ q ∈ w, q.isBlank = false := fun w hw =>
    ⟨by simpa using (List.mem_filter.mp hw).2,
      Text.not_sep_of_mem_fields (List.mem_of_mem_filter hw)⟩
  unfold collapsed at h
  cases hws : t.words with
  | nil =>
    rw [hws] at h
    cases h
  | cons w ws =>
    obtain ⟨hne, hw⟩ := hsolid w (hws ▸ List.mem_cons_self)
    obtain ⟨q, w, rfl⟩ := List.exists_cons_of_ne_nil hne
    have hhead : (Text.join " " ((q :: w) :: ws)).head? = some q := by
      cases ws <;> simp [Text.join, List.intercalate]
    rw [hws, hhead] at h
    obtain rfl := Option.some.inj h
    exact hw q List.mem_cons_self

/-- The blanks of a text are collapsed. -/
theorem collapses_collapsed (t : Text) : Collapses t (collapsed t) :=
  ⟨t.words, Text.spells_words t, rfl⟩

/-- A text is cut at a limit. -/
theorem shortens_shortened {limit : Nat} (hlimit : 3 ≤ limit) (t : Text) :
    Shortens limit t (shortened limit t) := by
  unfold shortened
  constructor
  · intro h
    rw [if_neg (Nat.not_lt.mpr h)]
  · intro h
    rw [if_pos h]
    refine ⟨rfl, ?_⟩
    rw [List.length_append, List.length_take, Nat.min_eq_left (by omega)]
    exact Nat.sub_add_cancel hlimit

/-- A text that is cut begins as before. -/
theorem Shortens.head?_eq {limit : Nat} {s t : Text} (h : Shortens limit s t) (hlimit : 3 < limit) :
    t.head? = s.head? := by
  rcases Nat.lt_or_ge limit s.length with hlt | hle
  · rw [(h.cut hlt).1]
    cases s with
    | nil => cases hlt
    | cons p s =>
      obtain ⟨n, hn⟩ : ∃ n, limit - 3 = n + 1 := ⟨limit - 4, by omega⟩
      rw [hn]
      rfl
  · rw [h.same hle]

/-- A text that is cut has a length of at most the limit. -/
theorem Shortens.length_le {limit : Nat} {s t : Text} (h : Shortens limit s t) :
    t.length ≤ limit := by
  rcases Nat.lt_or_ge limit s.length with hlt | hle
  · exact (h.cut hlt).2.le
  · rwa [h.same hle]

/-- A cell is longer than its text by one code point at most. -/
theorem Guards.length_le {t cell : Text} (h : Guards t cell) : cell.length ≤ t.length + 1 := by
  cases h with
  | plain => exact Nat.le_succ _
  | tab => exact Nat.le_refl _

/-- A cell with a text that begins with no tab is no formula. -/
theorem Guards.isHarmless {t cell : Text} (h : Guards t cell)
    (ht : t.head? ≠ some (.scalar '\t')) : IsHarmless cell := by
  cases h with
  | plain h => exact ⟨h, fun u hu => absurd (congrArg List.head? hu) ht⟩
  | tab h =>
    refine ⟨?_, fun u hu => (List.cons.inj hu).2 ▸ h⟩
    rintro _ ⟨⟩
    decide

/-- A cell that is made no formula holds its text, if that begins with no blank. -/
theorem guards_defused {t : Text} (h : ∀ p ∈ t.head?, p.isBlank = false) :
    Guards t (defused t) := by
  cases t with
  | nil => exact .plain (by simp)
  | cons p t =>
    have hp := h p rfl
    have hstarts : formulaStarts.contains p = true ↔ p ∈ signs := by
      have htab : p ≠ .scalar '\t' := by
        rintro rfl
        exact absurd hp (by decide)
      simp [formulaStarts, signs, htab]
    change Guards (p :: t) (if formulaStarts.contains p then .scalar '\t' :: p :: t else p :: t)
    split_ifs with hc
    · exact .tab ⟨p, rfl, hstarts.mp hc⟩
    · refine .plain ?_
      rintro _ ⟨⟩
      exact fun hsign => hc (hstarts.mpr hsign)

/-- The texts of cells from plugins begin with no tab. -/
theorem head?_ne_tab {t : Text} (h : ∀ p ∈ t.head?, p.isBlank = false) :
    t.head? ≠ some (.scalar '\t') :=
  fun ht => absurd (h _ ht) (by decide)

/-- A cell holds a text from a plugin with its blanks collapsed, and is no formula. -/
theorem plainCell_spec (t : Text) :
    Guards (collapsed t) (plainCell t) ∧ IsHarmless (plainCell t) := by
  have hhead : ∀ p ∈ (collapsed t).head?, p.isBlank = false := fun _ =>
    isBlank_of_mem_head?_collapsed
  exact ⟨guards_defused hhead, (guards_defused hhead).isHarmless (head?_ne_tab hhead)⟩

/-- A cell holds a text from a plugin that is cut at a limit, and is no formula. -/
theorem shortCell_spec {limit : Nat} (hlimit : 3 < limit) (t : Text) :
    Guards (shortened limit (collapsed t)) (shortCell limit t) ∧
      IsHarmless (shortCell limit t) := by
  have hhead : ∀ p ∈ (shortened limit (collapsed t)).head?, p.isBlank = false := by
    rw [(shortens_shortened hlimit.le (collapsed t)).head?_eq hlimit]
    exact fun _ => isBlank_of_mem_head?_collapsed
  exact ⟨guards_defused hhead, (guards_defused hhead).isHarmless (head?_ne_tab hhead)⟩

/-- The cell with the name of a plugin holds it, and is no formula. -/
theorem nameCell_spec (plugin : Text) :
    Guards (if collapsed plugin = [] then "unknown" else collapsed plugin) (nameCell plugin) ∧
      IsHarmless (nameCell plugin) := by
  have hcell := plainCell_spec plugin
  have hempty : (plainCell plugin).isEmpty = true ↔ collapsed plugin = [] := by
    unfold plainCell defused
    cases collapsed plugin <;> simp
    split_ifs <;> simp
  have hunknown : Guards "unknown" "unknown" := .plain (by decide)
  unfold nameCell
  simp only [hempty]
  split_ifs
  · exact ⟨hunknown, hunknown.isHarmless (by decide)⟩
  · exact hcell

/-- The cell of a signal or a detail holds it. -/
theorem exists_guards_shortCell {limit : Nat} (hlimit : 3 < limit) (t : Text) :
    ∃ u v, Collapses t u ∧ Shortens limit u v ∧ Guards v (shortCell limit t) :=
  ⟨_, _, collapses_collapsed t, shortens_shortened hlimit.le _, (shortCell_spec hlimit t).1⟩

/-- A row holds the piece of evidence that it is made of. -/
theorem isRowOf_row (plugin : Text) (e : Evidence) : IsRowOf plugin e (row plugin e) where
  length := rfl
  plugin := ⟨_, collapses_collapsed plugin, (nameCell_spec plugin).1⟩
  source := by
    change defused e.source.name = _
    cases e.source <;> decide
  file := ⟨_, collapses_collapsed e.file, (plainCell_spec e.file).1⟩
  line := rfl
  signal := exists_guards_shortCell (by decide) e.signal
  detail := exists_guards_shortCell (by decide) e.detail
  verdicts t := by cases t <;> rfl

/-- The cell of a signal or a detail has a length of at most the limit and one. -/
theorem length_le_of_guards {limit : Nat} {t cell : Text}
    (h : ∃ u v, Collapses t u ∧ Shortens limit u v ∧ Guards v cell) : cell.length ≤ limit + 1 := by
  obtain ⟨u, v, -, hshort, hguards⟩ := h
  exact hguards.length_le.trans (Nat.succ_le_succ hshort.length_le)

/-! ## The number of a line -/

/-- A number is no formula exactly if it has no sign. -/
theorem isHarmless_ofInt_iff (n : Int) : IsHarmless (Text.ofInt n) ↔ 0 ≤ n := by
  cases n with
  | ofNat n =>
    have hdigit : ∀ p ∈ (Text.ofNat n).head?, 48 ≤ p.val ∧ p.val ≤ 57 := fun p hp =>
      Text.digit_of_mem_ofNat (List.mem_of_mem_head? hp)
    have hguards : Guards (Text.ofNat n) (Text.ofNat n) := .plain fun p hp hsign => by
      have hno : ∀ p ∈ signs, ¬(48 ≤ p.val ∧ p.val ≤ 57) := by decide
      exact hno p hsign (hdigit p hp)
    refine iff_of_true (hguards.isHarmless fun htab => ?_) (Int.natCast_nonneg n)
    exact absurd (hdigit _ htab) (by decide)
  | negSucc n =>
    refine iff_of_false (fun h => ?_) (Int.negSucc_not_nonneg n).mp
    exact h.head (.scalar '-') rfl (by decide)

/-- The cells of a row are no formulas exactly if the number of the line has no sign. -/
theorem isHarmless_row_iff (plugin : Text) (e : Evidence) :
    (∀ cell ∈ row plugin e, IsHarmless cell) ↔ ∀ n ∈ e.line, 0 ≤ n := by
  have hplain {t : Text} (h : Guards t t) (ht : t.head? ≠ some (.scalar '\t')) : IsHarmless t :=
    h.isHarmless ht
  have hsource : IsHarmless (defused e.source.name) := by
    cases e.source <;> exact hplain (.plain (by decide)) (by decide)
  have hverdict (t : Target) : IsHarmless (e.impact.on t).name := by
    cases e.impact.on t <;> exact hplain (.plain (by decide)) (by decide)
  have hline : IsHarmless ((e.line.map Text.ofInt).getD []) ↔ ∀ n ∈ e.line, 0 ≤ n := by
    cases e.line with
    | none => exact iff_of_true (hplain (.plain (by decide)) (by decide)) (by simp)
    | some n => simpa using isHarmless_ofInt_iff n
  rw [← hline]
  simp [row, Target.all, hsource, hverdict, (nameCell_spec plugin).2, (plainCell_spec e.file).2,
    (@shortCell_spec 200 (by decide) e.signal).2,
    (@shortCell_spec 500 (by decide) e.detail).2]

/-- The names of the columns are no formulas. -/
theorem isHarmless_of_mem_columns {cell : Text} (h : cell ∈ columns) : IsHarmless cell := by
  have hhead : ∀ t ∈ columns, (∀ p ∈ t.head?, p ∉ signs) ∧ t.head? ≠ some (.scalar '\t') := by
    decide
  exact (Guards.plain (hhead cell h).1).isHarmless (hhead cell h).2

end Report

open Report in
/-- No cell of a table is a formula. A table is read back as the names of the columns and, result by
result, a row for each piece of evidence. No cell begins with an equals sign, a plus, a minus, an at
sign or a carriage return, and a tab is in front of one of those only, exactly if the numbers of the
lines, where there are any, have no sign. Without the tab a cell holds the text of its field, with
its blanks collapsed and, for the signal and the detail, cut at a limit; nothing but blanks in the
name of a plugin is a name that is unknown. So the cells of the signal and the detail are longer
than their limits by one at most. -/
theorem cells_are_no_formulas (rs : List Result) :
    Csv.read (table rs) = some (columns :: rs.flatMap rows) ∧
    ((∀ record ∈ columns :: rs.flatMap rows, ∀ cell ∈ record, IsHarmless cell) ↔
      ∀ r ∈ rs, ∀ e ∈ r.evidence, ∀ n ∈ e.line, 0 ≤ n) ∧
    ∀ r ∈ rs, List.Forall₂ (fun e row => IsRowOf r.plugin e row ∧
      (cellUnder "Signal" row).length ≤ 201 ∧ (cellUnder "Detail" row).length ≤ 501)
      r.evidence (rows r) := by
  refine ⟨read_table rs, ?_, fun r _ => ?_⟩
  · have hcolumns : ∀ cell ∈ columns, IsHarmless cell := fun _ => isHarmless_of_mem_columns
    rw [List.forall_mem_cons, and_iff_right hcolumns]
    simp only [List.forall_mem_flatMap, rows, List.forall_mem_map, isHarmless_row_iff]
  · refine List.forall₂_map_right_iff.mpr (List.forall₂_same.mpr fun e _ => ?_)
    have hrow := isRowOf_row r.plugin e
    exact ⟨hrow, length_le_of_guards hrow.signal, length_le_of_guards hrow.detail⟩

end SurfaceAudit
