import Mathlib.Data.List.TakeWhile
import SurfaceAudit.Markdown.Frontmatter
import SurfaceAudit.Proofs.PlainPaths
import SurfaceAudit.Proofs.Reading

/-!
# The parts of a document

A document with fields consists of five parts: a rule, a block of rows without rules, a rule, and
the rows of the body (`Markdown.IsDivided`). There is one way at most to divide it so, and it is the
one that is found (`Markdown.IsDivided.cut_eq`). The rows of a text with line feeds between them are
the text again (`Markdown.unrows_rows`), so that nothing of it is lost. What the block spells
(`Markdown.SpellsFields`) has no bearing on the body, and what is in the body has none on the fields
(`document_divided_faithfully`).
-/

namespace SurfaceAudit

namespace Text

/-- The fields of a text are its pieces between separators. -/
theorem fields_eq_splitOnP (sep : Point → Bool) (t : Text) : fields sep t = t.splitOnP sep := by
  have hfrom (t field : Text) :
      fieldsFrom sep t field [] = (t.splitOnP sep).modifyHead (field.reverse ++ ·) := by
    induction t generalizing field with
    | nil => simp [fieldsFrom]
    | cons c r ih =>
      rw [fieldsFrom, List.splitOnP_cons_eq_if_modifyHead]
      split
      · rw [fieldsFrom_done, ih, List.modifyHead_cons, List.append_nil]
        exact congrArg _ (congrFun List.modifyHead_id _)
      · rw [ih, List.modifyHead_modifyHead]
        simp [Function.comp_def]
  exact (hfrom t []).trans (congrFun List.modifyHead_id _)

/-- The rows of a text are its pieces between line feeds. -/
theorem rows_eq_splitOn (t : Text) : t.rows = t.splitOn (.scalar '\n') := fields_eq_splitOnP _ t

/-- There is no line feed in a row. -/
theorem notMem_of_mem_rows {t l : Text} (h : l ∈ t.rows) : Point.scalar '\n' ∉ l := fun hmem => by
  simpa using not_sep_of_mem_fields h _ hmem

end Text

namespace Markdown

/-- The rows of a text with line feeds between them are the text. -/
theorem unrows_rows (t : Text) : unrows t.rows = t := by
  rw [Text.rows_eq_splitOn]
  exact List.intercalate_splitOn _

/-- Rows with line feeds between them have these rows. -/
theorem rows_unrows {ls : List Text} (hne : ls ≠ []) (h : ∀ l ∈ ls, Point.scalar '\n' ∉ l) :
    (unrows ls).rows = ls := by
  rw [Text.rows_eq_splitOn]
  exact List.splitOn_intercalate _ h hne

/-- A row is a rule: without the blanks at its edges it is three hyphens. -/
theorem isRule_iff {l : Text} : isRule l = true ↔ l.strip = ("---" : Text) := beq_iff_eq

/-- A row is no rule: without the blanks at its edges it is something else than three hyphens. -/
theorem not_isRule_iff {l : Text} : (!isRule l) = true ↔ l.strip ≠ ("---" : Text) := by
  rw [Bool.not_eq_true', ← Bool.not_eq_true, isRule_iff]

/-- A document is divided into a rule, a block in which there is no rule, a rule that closes the
block, and a body. -/
structure IsDivided (content first : Text) (block : List Text) (closing : Text)
    (body : List Text) : Prop where
  /-- The rows of the document. -/
  rows_eq : content.rows = first :: (block ++ closing :: body)
  /-- The first row. -/
  opening : first.strip = ("---" : Text)
  /-- The rows of the block. -/
  inside : ∀ l ∈ block, l.strip ≠ ("---" : Text)
  /-- The row that closes the block. -/
  ending : closing.strip = ("---" : Text)

/-- A block of rows spells fields: the mapping that it is in YAML, or none if it is another value or
not YAML. -/
inductive SpellsFields (block : List Text) : Value → Prop where
  /-- A mapping. -/
  | mapping {v : Value} (load : Yaml.load (unrows block) = .ok v) (entries : v.entries? ≠ none) :
    SpellsFields block v
  /-- Another value. -/
  | other {v : Value} (load : Yaml.load (unrows block) = .ok v) (entries : v.entries? = none) :
    SpellsFields block (.map [])
  /-- What is not YAML. -/
  | malformed (load : Yaml.load (unrows block) = .error .malformed) : SpellsFields block (.map [])

variable {content first closing : Text} {block body : List Text}

/-- The fields that are read are those that the block spells. -/
theorem fieldsOf_eq_ok_iff {v : Value} : fieldsOf block = .ok v ↔ SpellsFields block v := by
  unfold fieldsOf
  constructor
  · intro h
    split at h
    · rename_i w hload
      cases h
      by_cases hw : w.entries?.isSome = true
      · rw [if_pos hw]
        exact .mapping hload (Option.isSome_iff_ne_none.mp hw)
      · rw [if_neg hw]
        exact .other hload (by simpa using hw)
    · rename_i hload
      cases h
      exact .malformed hload
    · cases h
  · rintro (⟨hload, hentries⟩ | ⟨hload, hentries⟩ | hload)
    · simp only [hload, Option.isSome_iff_ne_none.mpr hentries, if_true]
    · simp only [hload, hentries]
      rfl
    · simp only [hload]

/-- A block spells fields, unless a value in it does not exist. -/
theorem exists_spellsFields (h : ∀ f, Yaml.load (unrows block) ≠ .error (.fault f)) :
    ∃ v, SpellsFields block v := by
  rcases hload : Yaml.load (unrows block) with (_ | f) | v
  · exact ⟨_, .malformed hload⟩
  · exact absurd hload (h f)
  · by_cases hv : v.entries? = none
    · exact ⟨_, .other hload hv⟩
    · exact ⟨v, .mapping hload hv⟩

namespace IsDivided

/-- The block and the body of a divided document are found. -/
theorem cut_eq (h : IsDivided content first block closing body) :
    cut content.rows = some (block, body) := by
  have hinside : ∀ l ∈ block, (!isRule l) = true := fun l hl => not_isRule_iff.mpr (h.inside l hl)
  have hending : isRule closing = true := isRule_iff.mpr h.ending
  rw [h.rows_eq, cut, if_pos (isRule_iff.mpr h.opening), List.dropWhile_append_of_pos hinside,
    List.takeWhile_append_of_pos hinside]
  simp [hending]

/-- The document consists of its parts. -/
theorem content_eq (h : IsDivided content first block closing body) :
    content = unrows (first :: (block ++ closing :: body)) := by
  rw [← h.rows_eq, unrows_rows]

/-- There is one way to divide a document. -/
theorem unique {first' closing' : Text} {block' body' : List Text}
    (h : IsDivided content first block closing body)
    (h' : IsDivided content first' block' closing' body') :
    first' = first ∧ block' = block ∧ closing' = closing ∧ body' = body := by
  have hcut := h'.cut_eq.symm.trans h.cut_eq
  cases hcut
  obtain ⟨hfirst, hrest⟩ := List.cons.inj (h'.rows_eq.symm.trans h.rows_eq)
  exact ⟨hfirst, rfl, (List.cons.inj (List.append_cancel_left hrest)).1, rfl⟩

/-- A divided document has the fields that its block spells, and its body. -/
theorem split_eq (h : IsDivided content first block closing body) {fields : Value}
    (hfields : SpellsFields block fields) : split content = .ok (fields, unrows body) := by
  unfold split
  rw [h.cut_eq]
  dsimp only
  rw [fieldsOf_eq_ok_iff.mpr hfields]
  rfl

/-- There is no line feed in a row of a divided document. -/
theorem notMem_row (h : IsDivided content first block closing body) {l : Text}
    (hl : l ∈ first :: (block ++ closing :: body)) : Point.scalar '\n' ∉ l :=
  Text.notMem_of_mem_rows (h.rows_eq ▸ hl)

/-- A document is divided in the same way with other rows in its block, if none is a rule, and
others in its body. -/
theorem replace (h : IsDivided content first block closing body) {block' body' : List Text}
    (hblock : ∀ l ∈ block', Point.scalar '\n' ∉ l ∧ l.strip ≠ ("---" : Text))
    (hbody : ∀ l ∈ body', Point.scalar '\n' ∉ l) :
    IsDivided (unrows (first :: (block' ++ closing :: body'))) first block' closing body' := by
  refine ⟨rows_unrows (List.cons_ne_nil _ _) fun l hl => ?_, h.opening,
    fun l hl => (hblock l hl).2, h.ending⟩
  rcases List.mem_cons.mp hl with rfl | hl
  · exact h.notMem_row List.mem_cons_self
  · rcases List.mem_append.mp hl with hl | hl
    · exact (hblock l hl).1
    · rcases List.mem_cons.mp hl with rfl | hl
      · exact h.notMem_row (by simp)
      · exact hbody l hl

end IsDivided

/-- A document can be divided exactly if its first row is a rule and so is a later one. -/
theorem exists_isDivided_iff :
    (∃ first block closing body, IsDivided content first block closing body) ↔
      ∃ first later, content.rows = first :: later ∧ first.strip = ("---" : Text) ∧
        ∃ l ∈ later, l.strip = ("---" : Text) := by
  constructor
  · rintro ⟨first, block, closing, body, h⟩
    exact ⟨first, _, h.rows_eq, h.opening, closing, by simp, h.ending⟩
  · rintro ⟨first, later, hrows, hfirst, l, hl, hrule⟩
    -- The first of the later rules closes the block.
    obtain ⟨closing, hfind⟩ : ∃ closing, later.find? isRule = some closing :=
      Option.isSome_iff_exists.mp (List.find?_isSome.mpr ⟨l, hl, isRule_iff.mpr hrule⟩)
    obtain ⟨hclosing, block, body, rfl, hblock⟩ := List.find?_eq_some_iff_append.mp hfind
    exact ⟨first, block, closing, body, hrows, hfirst,
      fun x hx hrule => by simpa [isRule_iff.mpr hrule] using hblock x hx, isRule_iff.mp hclosing⟩

/-- Where nothing can be divided, nothing is cut. -/
theorem cut_eq_none (h : ¬∃ first block closing body, IsDivided content first block closing body) :
    cut content.rows = none := by
  rw [exists_isDivided_iff] at h
  unfold cut
  split
  · rfl
  · rename_i first later hrows
    split
    · rename_i hfirst
      have hnone : ∀ l ∈ later, (!isRule l) = true := fun l hl =>
        not_isRule_iff.mpr fun hl' =>
          h ⟨first, later, hrows, isRule_iff.mp hfirst, l, hl, hl'⟩
      rw [List.dropWhile_eq_nil_iff.mpr hnone]
    · rfl

end Markdown

open Markdown

/-- A document is divided faithfully. If its first row is no rule, or no later one is, it has no
fields, and all of it is the body. Else it is divided in one way: it consists of a rule, a block
without rules, the rule that closes it, and the body, with line feeds between the rows. It has the
fields that the block spells, and there are fields unless a value in the block does not exist. The
fields are the same with any other body, and the body is the same with any other block in which
there is no rule, whether it is YAML or not. -/
theorem document_divided_faithfully (content : Text) :
    ((∃ first block closing body, IsDivided content first block closing body) ↔
      ∃ first later, content.rows = first :: later ∧ first.strip = ("---" : Text) ∧
        ∃ l ∈ later, l.strip = ("---" : Text)) ∧
    ((¬∃ first block closing body, IsDivided content first block closing body) →
      split content = .ok (.map [], content)) ∧
    ∀ first block closing body, IsDivided content first block closing body →
      content = unrows (first :: (block ++ closing :: body)) ∧
      (∀ first' block' closing' body', IsDivided content first' block' closing' body' →
        first' = first ∧ block' = block ∧ closing' = closing ∧ body' = body) ∧
      ((∀ f, Yaml.load (unrows block) ≠ .error (.fault f)) →
        ∃ fields, SpellsFields block fields ∧ split content = .ok (fields, unrows body) ∧
          ∀ body', (∀ l ∈ body', Point.scalar '\n' ∉ l) →
            split (unrows (first :: (block ++ closing :: body'))) =
              .ok (fields, unrows body')) ∧
      ∀ block', (∀ l ∈ block', Point.scalar '\n' ∉ l ∧ l.strip ≠ ("---" : Text)) →
        (∀ f, Yaml.load (unrows block') ≠ .error (.fault f)) →
          ∃ fields, SpellsFields block' fields ∧
            split (unrows (first :: (block' ++ closing :: body))) = .ok (fields, unrows body) := by
  refine ⟨exists_isDivided_iff, fun h => ?_, fun first block closing body h =>
    ⟨h.content_eq, fun _ _ _ _ h' => h.unique h', fun hload => ?_, fun block' hblock hload => ?_⟩⟩
  · unfold split
    rw [cut_eq_none h]
  · -- The block stays, and the body may change.
    obtain ⟨fields, hfields⟩ := exists_spellsFields hload
    refine ⟨fields, hfields, h.split_eq hfields, fun body' hbody => ?_⟩
    have hblock : ∀ l ∈ block, Point.scalar '\n' ∉ l ∧ l.strip ≠ ("---" : Text) :=
      fun l hl => ⟨h.notMem_row (by simp [hl]), h.inside l hl⟩
    exact (h.replace hblock hbody).split_eq hfields
  · -- The body stays, and the block may change.
    obtain ⟨fields, hfields⟩ := exists_spellsFields hload
    have hbody : ∀ l ∈ body, Point.scalar '\n' ∉ l := fun l hl => h.notMem_row (by simp [hl])
    exact ⟨fields, hfields, (h.replace hblock hbody).split_eq hfields⟩

/-- What is loaded is no value that does not exist, as a test shows. -/
theorem Yaml.ne_fault {outcome : Except Failure Value}
    (h : (match outcome with | .error (.fault _) => false | _ => true) = true) (f : Fault) :
    outcome ≠ .error (.fault f) := by
  rintro rfl
  cases h

/-- A document whose block is not YAML. -/
def brokenDocument : Text := "---\na: [\n---\nx"

/-- A document whose block is not YAML has the same body as with a block that is. -/
theorem document_divided_faithfully_broken :
    IsDivided brokenDocument "---" ["a: ["] "---" ["x"] ∧
    (∀ f, Yaml.load (unrows ["a: ["]) ≠ .error (.fault f)) ∧
    (∃ fields, SpellsFields ["a: ["] fields ∧ split brokenDocument = .ok (fields, "x")) ∧
    (∀ f, Yaml.load (unrows ["a: 1"]) ≠ .error (.fault f)) ∧
    ∃ fields, SpellsFields ["a: 1"] fields ∧ split "---\na: 1\n---\nx" = .ok (fields, "x") := by
  have hdivided : IsDivided brokenDocument "---" ["a: ["] "---" ["x"] :=
    ⟨by decide, by decide, by decide, by decide⟩
  have hbroken : ∀ f, Yaml.load (unrows ["a: ["]) ≠ .error (.fault f) :=
    Yaml.ne_fault (by decide +kernel)
  have hsound : ∀ f, Yaml.load (unrows ["a: 1"]) ≠ .error (.fault f) :=
    Yaml.ne_fault (by decide +kernel)
  obtain ⟨-, -, hfields, hblock⟩ :=
    (document_divided_faithfully brokenDocument).2.2 _ _ _ _ hdivided
  obtain ⟨fields, hspells, hsplit, -⟩ := hfields hbroken
  exact ⟨hdivided, hbroken, ⟨fields, hspells, hsplit⟩, hsound, hblock ["a: 1"] (by decide) hsound⟩

end SurfaceAudit
