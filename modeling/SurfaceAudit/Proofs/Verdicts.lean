import SurfaceAudit.Proofs.Reading

/-!
# Verdicts are explained by the evidence

On each surface, the verdict of some evidence is the least one that no impact exceeds
(`Evidence.verdicts_on_le_iff`), and unless it is the mildest one, it is the verdict of some piece
of the evidence (`Evidence.exists_on_eq`). So it depends only on which evidence there is that
restricts anything. An analysis drops the rest before the verdicts are taken, which therefore are
those of all evidence that the scanners find.
-/

namespace SurfaceAudit

namespace Verdict

/-- The more restrictive of two verdicts is one of them. -/
theorem worse_eq_or (a b : Verdict) : worse a b = a ∨ worse a b = b := by
  unfold worse
  split
  · exact .inr rfl
  · exact .inl rfl

end Verdict

namespace Impact

/-- The worst of some impacts and a first one is no worse than a verdict exactly when none of them
is. -/
theorem foldl_worse_on_le_iff (is : List Impact) (a : Impact) (t : Target) (v : Verdict) :
    (is.foldl worse a).on t ≤ v ↔ a.on t ≤ v ∧ ∀ i ∈ is, i.on t ≤ v := by
  induction is generalizing a with
  | nil => simp
  | cons i r ih =>
    rw [List.foldl_cons, ih, on_worse, Verdict.worse_le_iff, List.forall_mem_cons, and_assoc]

/-- The worst of some impacts is no worse than a verdict exactly when none of them is. -/
theorem worst_on_le_iff (is : List Impact) (t : Target) (v : Verdict) :
    (worst is).on t ≤ v ↔ ∀ i ∈ is, i.on t ≤ v := by
  unfold worst
  rw [foldl_worse_on_le_iff, on_none]
  simp

/-- On a surface, the worst of some impacts and a first one is one of them. -/
theorem foldl_worse_on_mem (is : List Impact) (a : Impact) (t : Target) :
    (is.foldl worse a).on t = a.on t ∨ ∃ i ∈ is, (is.foldl worse a).on t = i.on t := by
  induction is generalizing a with
  | nil => exact .inl rfl
  | cons i r ih =>
    rw [List.foldl_cons]
    rcases ih (worse a i) with h | ⟨j, hj, h⟩
    · rw [h, on_worse]
      rcases Verdict.worse_eq_or (a.on t) (i.on t) with hw | hw
      · exact .inl hw
      · exact .inr ⟨i, List.mem_cons_self, hw⟩
    · exact .inr ⟨j, List.mem_cons_of_mem i hj, h⟩

/-- An impact restricts nothing exactly when it is compatible on every surface. -/
theorem isNone_iff (i : Impact) : i.isNone = true ↔ ∀ t, i.on t = .compatible := by
  unfold isNone
  rw [List.all_eq_true]
  constructor
  · intro h t
    simpa using h t t.mem_all
  · intro h t _
    simpa using h t

end Impact

namespace Evidence

/-- The verdict of some evidence on a surface is no worse than a verdict exactly when no impact is.
-/
theorem verdicts_on_le_iff (es : List Evidence) (t : Target) (v : Verdict) :
    (verdicts es).on t ≤ v ↔ ∀ e ∈ es, e.impact.on t ≤ v := by
  unfold verdicts
  rw [Impact.worst_on_le_iff, List.forall_mem_map]

/-- No impact exceeds the verdict. -/
theorem on_le_verdicts {es : List Evidence} {e : Evidence} (h : e ∈ es) (t : Target) :
    e.impact.on t ≤ (verdicts es).on t :=
  (verdicts_on_le_iff es t _).mp (Verdict.le_refl _) e h

/-- A verdict that restricts a surface is that of some piece of the evidence. -/
theorem exists_on_eq {es : List Evidence} {t : Target} (h : (verdicts es).on t ≠ .compatible) :
    ∃ e ∈ es, e.impact.on t = (verdicts es).on t := by
  unfold verdicts Impact.worst at h ⊢
  rcases Impact.foldl_worse_on_mem (es.map (·.impact)) Impact.none t with h' | ⟨i, hi, h'⟩
  · rw [h', Impact.on_none] at h
    exact absurd rfl h
  · obtain ⟨e, he, rfl⟩ := List.mem_map.mp hi
    exact ⟨e, he, h'.symm⟩

/-- Evidence that restricts nothing is compatible with every surface. -/
theorem isInformational_iff (e : Evidence) :
    e.isInformational = true ↔ ∀ t, e.impact.on t = .compatible :=
  e.impact.isNone_iff

/-- If all evidence of one list that restricts anything is in another, its verdicts are no worse. -/
theorem verdicts_on_mono {es fs : List Evidence} (t : Target)
    (h : ∀ e ∈ es, e.isInformational = false → e ∈ fs) :
    (verdicts es).on t ≤ (verdicts fs).on t := by
  rw [verdicts_on_le_iff]
  intro e he
  cases hi : e.isInformational with
  | true =>
    rw [(isInformational_iff e).mp hi t]
    exact Verdict.compatible_le _
  | false => exact on_le_verdicts (h e he hi) t

/-- Only the evidence that restricts anything counts, and neither its order nor its number. -/
theorem verdicts_congr {es fs : List Evidence}
    (h : ∀ e, e.isInformational = false → (e ∈ es ↔ e ∈ fs)) : verdicts es = verdicts fs := by
  apply Impact.ext_on
  intro t
  apply Verdict.le_antisymm
  · exact verdicts_on_mono t fun e he hi => (h e hi).mp he
  · exact verdicts_on_mono t fun e he hi => (h e hi).mpr he

/-- Evidence that restricts nothing may be dropped before the verdicts are taken. -/
theorem verdicts_filter (es : List Evidence) :
    verdicts (es.filter (!·.isInformational)) = verdicts es := by
  apply verdicts_congr
  intro e hi
  rw [List.mem_filter]
  simp [hi]

/-- The verdict of two lists of evidence is the worse of theirs. -/
theorem verdicts_append_on (es fs : List Evidence) (t : Target) :
    (verdicts (es ++ fs)).on t = ((verdicts es).on t).worse ((verdicts fs).on t) := by
  have hle (v : Verdict) : (verdicts (es ++ fs)).on t ≤ v ↔
      ((verdicts es).on t).worse ((verdicts fs).on t) ≤ v := by
    rw [Verdict.worse_le_iff, verdicts_on_le_iff, verdicts_on_le_iff, verdicts_on_le_iff,
      List.forall_mem_append]
  exact Verdict.le_antisymm ((hle _).mpr (Verdict.le_refl _)) ((hle _).mp (Verdict.le_refl _))

/-- Evidence none of which is without restriction is missing exactly when no surface is restricted.
-/
theorem eq_nil_iff_verdicts {es : List Evidence} (h : ∀ e ∈ es, e.isInformational = false) :
    es = [] ↔ ∀ t, (verdicts es).on t = .compatible := by
  constructor
  · rintro rfl t
    exact Impact.on_none t
  · intro hall
    rw [List.eq_nil_iff_forall_not_mem]
    intro e he
    -- A piece of evidence would be compatible with all surfaces, as the verdicts are.
    have hi : e.isInformational = true := by
      rw [isInformational_iff]
      intro t
      apply Verdict.le_antisymm
      · rw [← hall t]
        exact on_le_verdicts he t
      · exact Verdict.compatible_le _
    rw [h e he] at hi
    exact absurd hi (by simp)

end Evidence

namespace Analyzer

/-- The verdicts of a result are those of all evidence that was found. -/
theorem resultOf_analyzed (c : Contents) (found : List Evidence) (notes : List Note) :
    (resultOf c found notes).analyzed = Evidence.verdicts found :=
  Evidence.verdicts_filter found

/-- The evidence of a result restricts something. -/
theorem isInformational_of_mem_resultOf {c : Contents} {found : List Evidence} {notes : List Note}
    {e : Evidence} (h : e ∈ (resultOf c found notes).evidence) : e.isInformational = false := by
  have hf : e ∈ found.filter (!·.isInformational) := h
  simpa using (List.mem_filter.mp hf).2

end Analyzer

/-- The verdicts of some evidence are, on each surface, the least ones that no impact exceeds, which
are compatible without any evidence. They depend only on which evidence there is that restricts
anything, not on its order or number, and those of two lists are the worse ones of each. An analysis
that gives a result therefore explains its verdicts: they are those of all evidence that the
scanners find, and of the evidence reported, all of which restricts something, some piece has each
verdict other than compatible. None is reported exactly when every surface is compatible. -/
theorem verdicts_explained :
    (∀ (es : List Evidence) (t : Target),
      (∀ e ∈ es, e.impact.on t ≤ (Evidence.verdicts es).on t) ∧
        ∀ v, (∀ e ∈ es, e.impact.on t ≤ v) → (Evidence.verdicts es).on t ≤ v) ∧
      (∀ t, (Evidence.verdicts []).on t = .compatible) ∧
      (∀ es fs : List Evidence, (∀ e, e.isInformational = false → (e ∈ es ↔ e ∈ fs)) →
        Evidence.verdicts es = Evidence.verdicts fs) ∧
      (∀ (es fs : List Evidence) (t : Target), (Evidence.verdicts (es ++ fs)).on t =
        ((Evidence.verdicts es).on t).worse ((Evidence.verdicts fs).on t)) ∧
      ∀ (a : Analyzer) (d : Disk) (path : Text) (r : Result), a.analyze d path = .ok r →
        ∃ c found notes, a.survey d path = .ok (c, found, notes) ∧
          r.analyzed = Evidence.verdicts found ∧
          r.evidence = found.filter (!·.isInformational) ∧
          (∀ e ∈ r.evidence, e.isInformational = false) ∧
          (∀ t, r.analyzed.on t ≠ .compatible →
            ∃ e ∈ r.evidence, e.impact.on t = r.analyzed.on t) ∧
          (r.evidence = [] ↔ ∀ t, r.analyzed.on t = .compatible) := by
  refine ⟨?_, Impact.on_none, fun _ _ => Evidence.verdicts_congr, Evidence.verdicts_append_on, ?_⟩
  · intro es t
    exact ⟨fun e he => Evidence.on_le_verdicts he t,
      fun v => (Evidence.verdicts_on_le_iff es t v).mpr⟩
  · intro a d path r h
    obtain ⟨c, found, notes, hs, rfl⟩ := Analyzer.exists_of_analyze h
    have hrestricts : ∀ e ∈ (Analyzer.resultOf c found notes).evidence,
        e.isInformational = false := fun e he => Analyzer.isInformational_of_mem_resultOf he
    refine ⟨c, found, notes, hs, Analyzer.resultOf_analyzed c found notes, rfl, hrestricts, ?_, ?_⟩
    · intro t ht
      exact Evidence.exists_on_eq ht
    · exact Evidence.eq_nil_iff_verdicts hrestricts

end SurfaceAudit
