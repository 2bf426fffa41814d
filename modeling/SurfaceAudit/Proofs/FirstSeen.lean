import SurfaceAudit.Proofs.Scanners

/-!
# First occurrences

The scanners keep what they find once, at its first place, and grow their lists at the end. Such a
list is the list of all occurrences without the later duplicates (`foldl_concat_new`). For tools
these are duplicates of names (`Declaration.distinct_eq_eraseDups`). For imports they are duplicates
of the names in numbered occurrences (`Script.firstSeen_eq`), so that a name comes with a number
exactly if the line with this number is the first one that has it (`Script.mem_firstSeen_iff`).
-/

namespace SurfaceAudit

/-- A list that grows at its end by what is not related to anything in it has the first occurrences
of what it grew by. -/
theorem foldl_concat_new {α : Type} (r : α → α → Bool) (xs seen : List α) :
    xs.foldl (fun seen x => if seen.any (r x) then seen else seen ++ [x]) seen =
      List.eraseDupsBy.loop r xs seen.reverse := by
  induction xs generalizing seen with
  | nil => simp [List.eraseDupsBy.loop]
  | cons x xs ih =>
    rw [List.foldl_cons, ih, List.eraseDupsBy.loop, List.any_reverse]
    cases seen.any (r x) with
    | true => rfl
    | false => simp

/-- Each text once, at its first place. -/
theorem Declaration.distinct_eq_eraseDups (ts : List Text) : distinct ts = ts.eraseDups := by
  have hcontains (seen : List Text) (t : Text) : seen.contains t = seen.any (t == ·) :=
    List.contains_eq_any_beq
  unfold distinct
  simp only [hcontains]
  exact foldl_concat_new (· == ·) ts []

namespace Script

/-- The names that lines have, each with the number of its line, in order. -/
def occurrencesFrom (number : Nat) (nss : List (List Text)) : List (Text × Nat) :=
  (nss.zipIdx number).flatMap fun x => x.1.map (·, x.2)

/-- The names of the first line come first, with its number; the others are those of the lines after
it. -/
theorem occurrencesFrom_cons (number : Nat) (ns : List Text) (nss : List (List Text)) :
    occurrencesFrom number (ns :: nss) =
      ns.map (·, number) ++ occurrencesFrom (number + 1) nss := by
  simp [occurrencesFrom, List.zipIdx_cons]

/-- The names that lines have, each once, with the number of the first line that has it. The lines
are numbered from 1. -/
def firstOccurrences (nss : List (List Text)) : List (Text × Nat) :=
  (occurrencesFrom 1 nss).eraseDupsBy fun x y => x.1 == y.1

/-- What is seen on lines grows by the occurrences on them. -/
theorem firstSeenFrom_eq_foldl (names : Text → List Text) (number : Nat)
    (seen : List (Text × Nat)) (lines : List Text) :
    firstSeenFrom names number seen lines = (occurrencesFrom number (lines.map names)).foldl
      (fun seen x => if seen.any fun y => x.1 == y.1 then seen else seen ++ [x]) seen := by
  induction lines generalizing number seen with
  | nil => rfl
  | cons line lines ih =>
    have hline : noteAll number seen (names line) = ((names line).map (·, number)).foldl
        (fun seen x => if seen.any fun y => x.1 == y.1 then seen else seen ++ [x]) seen := by
      rw [List.foldl_map, noteAll]
      simp only [BEq.comm]
    rw [List.map_cons, occurrencesFrom_cons, List.foldl_append, ← hline]
    exact ih (number + 1) _

/-- The names in a text with their lines are the first occurrences on its lines. -/
theorem firstSeen_eq (names : Text → List Text) (content : Text) :
    firstSeen names content = firstOccurrences (content.lines.map names) := by
  unfold firstSeen
  rw [firstSeenFrom_eq_foldl]
  exact foldl_concat_new (fun (x y : Text × Nat) => x.1 == y.1) _ []

/-- No name is there twice. -/
theorem nodup_firstSeen (names : Text → List Text) (content : Text) :
    ((firstSeen names content).map (·.1)).Nodup := by
  have hempty : IsTally 1 [] := ⟨List.nodup_nil, .nil, fun x hx => (nomatch hx)⟩
  obtain ⟨last, htally⟩ := exists_isTally_firstSeenFrom names content.lines hempty
  exact htally.once

section Members

variable {names : Text → List Text} {number : Nat} {seen : List (Text × Nat)} {x : Text × Nat}

/-- Noting the names of a line adds those that were not seen, with the number of the line. -/
theorem mem_noteAll_iff {ns : List Text} : x ∈ noteAll number seen ns ↔
    x ∈ seen ∨ (∀ y ∈ seen, y.1 ≠ x.1) ∧ x.1 ∈ ns ∧ x.2 = number := by
  unfold noteAll
  induction ns generalizing seen with
  | nil => simp
  | cons n ns ih =>
    rw [List.foldl_cons, ih]
    split
    · -- The name was seen, so that it is none of those that are added.
      rename_i hseen
      obtain ⟨y, hy, hyn⟩ := List.any_eq_true.mp hseen
      have hyn : y.1 = n := eq_of_beq hyn
      have hadded (hnew : ∀ y ∈ seen, y.1 ≠ x.1) : x.1 ∈ n :: ns ↔ x.1 ∈ ns := by
        have hne : x.1 ≠ n := fun h => hnew y hy (hyn.trans h.symm)
        simp [hne]
      constructor
      · rintro (h | ⟨hnew, hx⟩)
        · exact .inl h
        · exact .inr ⟨hnew, (hadded hnew).mpr hx.1, hx.2⟩
      · rintro (h | ⟨hnew, hx⟩)
        · exact .inl h
        · exact .inr ⟨hnew, (hadded hnew).mp hx.1, hx.2⟩
    · rename_i hseen
      have hunseen : ∀ y ∈ seen, y.1 ≠ n := by
        intro y hy heq
        exact hseen (List.any_eq_true.mpr ⟨y, hy, beq_iff_eq.mpr heq⟩)
      have hpair : x = (n, number) ↔ x.1 = n ∧ x.2 = number := Prod.ext_iff
      have hall : (∀ y ∈ seen ++ [(n, number)], y.1 ≠ x.1) ↔
          (∀ y ∈ seen, y.1 ≠ x.1) ∧ n ≠ x.1 := by
        simp [or_imp, forall_and]
      rw [List.mem_append, List.mem_singleton, hall, hpair, List.mem_cons]
      constructor
      · rintro ((h | ⟨hn, hx⟩) | ⟨⟨hnew, -⟩, hns, hx⟩)
        · exact .inl h
        · exact .inr ⟨hn ▸ hunseen, .inl hn, hx⟩
        · exact .inr ⟨hnew, .inr hns, hx⟩
      · rintro (h | ⟨hnew, hns, hx⟩)
        · exact .inl (.inl h)
        · by_cases hn : x.1 = n
          · exact .inl (.inr ⟨hn, hx⟩)
          · exact .inr ⟨⟨hnew, Ne.symm hn⟩, hns.resolve_left hn, hx⟩

/-- A name that was not seen before comes with the number of the first line that has it. -/
theorem mem_firstSeenFrom_iff {lines : List Text} : x ∈ firstSeenFrom names number seen lines ↔
    x ∈ seen ∨ (∀ y ∈ seen, y.1 ≠ x.1) ∧ ∃ i line, lines[i]? = some line ∧ x.1 ∈ names line ∧
      x.2 = number + i ∧ ∀ j < i, ∀ l, lines[j]? = some l → x.1 ∉ names l := by
  -- What was seen on one line is seen before the next, so the induction is for any names seen
  -- before.
  induction lines generalizing number seen with
  | nil => simp [firstSeenFrom]
  | cons line lines ih =>
    rw [firstSeenFrom, ih, mem_noteAll_iff]
    constructor
    · rintro ((h | ⟨hnew, hx, hnumber⟩) | ⟨hnew, i, l, hl, hx, hnumber, hfirst⟩)
      · exact .inl h
      · exact .inr ⟨hnew, 0, line, rfl, hx, hnumber, by simp⟩
      · have hseen : ∀ y ∈ seen, y.1 ≠ x.1 := fun y hy => hnew y (mem_noteAll_iff.mpr (.inl hy))
        have hline : x.1 ∉ names line := by
          intro hx
          exact hnew (x.1, number) (mem_noteAll_iff.mpr (.inr ⟨hseen, hx, rfl⟩)) rfl
        refine .inr ⟨hseen, i + 1, l, hl, hx, by omega, fun j hj l' hl' => ?_⟩
        cases j with
        | zero => exact Option.some.inj hl' ▸ hline
        | succ j => exact hfirst j (by omega) l' hl'
    · rintro (h | ⟨hseen, i, l, hl, hx, hnumber, hfirst⟩)
      · exact .inl (.inl h)
      · cases i with
        | zero =>
          obtain rfl := Option.some.inj hl
          exact .inl (.inr ⟨hseen, hx, hnumber⟩)
        | succ i =>
          refine .inr ⟨fun y hy heq => ?_, i, l, hl, hx, by omega, fun j hj l' hl' =>
            hfirst (j + 1) (by omega) l' hl'⟩
          rcases mem_noteAll_iff.mp hy with hy | ⟨-, hy, -⟩
          · exact hseen y hy heq
          · exact hfirst 0 (by omega) line rfl (heq ▸ hy)

/-- A name comes with a number exactly if the line with this number is the first one that has it. -/
theorem mem_firstSeen_iff {content : Text} : x ∈ firstSeen names content ↔
    ∃ i line, content.lines[i]? = some line ∧ x.1 ∈ names line ∧ x.2 = i + 1 ∧
      ∀ j < i, ∀ l, content.lines[j]? = some l → x.1 ∉ names l := by
  unfold firstSeen
  rw [mem_firstSeenFrom_iff]
  simp [Nat.add_comm]

/-- A name that a line has comes with the number of this line or of an earlier one. -/
theorem exists_mem_firstSeen {content name line : Text} {i : Nat}
    (hline : content.lines[i]? = some line) (hname : name ∈ names line) :
    ∃ n ≤ i + 1, (name, n) ∈ firstSeen names content := by
  -- The first line that has the name.
  have hexists : ∃ j l, content.lines[j]? = some l ∧ name ∈ names l := ⟨i, line, hline, hname⟩
  classical
  obtain ⟨l, hl, hlname⟩ := Nat.find_spec hexists
  have hle : Nat.find hexists ≤ i := Nat.find_le ⟨line, hline, hname⟩
  refine ⟨Nat.find hexists + 1, by omega, mem_firstSeen_iff.mpr ⟨_, l, hl, hlname, rfl, ?_⟩⟩
  intro j hj l' hl' hname'
  exact Nat.find_min hexists hj ⟨l', hl', hname'⟩

end Members

/-- The evidence of an import under a rule: a name, with the number of its line. -/
def importOf (r : SignalRule) (detail : Text → Text) (file : Text) (x : Text × Nat) : Evidence :=
  ⟨.scriptImport, file, some (x.2 : Int), r.signal ++ x.1, detail x.1, r.template.impact⟩

/-- The evidence of the imports in a text is one piece for each name in it, if there is a rule. -/
theorem importEvidence_eq (rules : RuleTables) (language : Text) (names : Text → List Text)
    (detail : Text → Text) (file content : Text) :
    importEvidence rules language names detail file content = (rules.imports.get? language).elim []
      fun r => (firstSeen names content).map (importOf r detail file) := by
  unfold importEvidence
  cases rules.imports.get? language with
  | none => rfl
  | some r => rfl

end Script

end SurfaceAudit
