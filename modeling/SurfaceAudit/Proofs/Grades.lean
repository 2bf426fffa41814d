import SurfaceAudit.Proofs.Scanners

/-!
# Rules grade the surfaces

The impacts that rules may name restrict the surfaces in their order: the desktop at least as much
as the shared workspace, which is never out, and the local environment not at all
(`Impact.IsGraded`). The worst of graded impacts is graded (`Evidence.isGraded_verdicts`), and every
scanner copies the impact of a rule unless it reads a list of surfaces. So only what authors declare
can turn the order of the surfaces around.
-/

namespace SurfaceAudit

namespace Impact

/-- The impact restricts the surfaces in their order, the shared workspace with a review at most,
and the local environment not at all. -/
structure IsGraded (i : Impact) : Prop where
  /-- The shared workspace is restricted no more than the desktop. -/
  cowork_le_desktop : i.on .cowork ≤ i.on .desktop
  /-- The shared workspace needs a review at most. -/
  cowork_le_review : i.on .cowork ≤ .needsReview
  /-- The local environment is not restricted. -/
  code_eq : i.on .code = .compatible

namespace IsGraded

variable {i : Impact}

/-- A graded impact restricts the local environment no more than the shared workspace. -/
theorem code_le_cowork (h : i.IsGraded) : i.on .code ≤ i.on .cowork := by
  rw [h.code_eq]
  exact Verdict.compatible_le _

/-- A graded impact never rules out the shared workspace. -/
theorem cowork_ne_incompatible (h : i.IsGraded) : i.on .cowork ≠ .incompatible := by
  intro heq
  have hle := h.cowork_le_review
  rw [heq] at hle
  exact absurd hle (by decide)

/-- A graded impact that restricts anything restricts the desktop. -/
theorem review_le_desktop (h : i.IsGraded) (hi : i.isNone = false) :
    .needsReview ≤ i.on .desktop := by
  by_contra hlt
  -- Otherwise the desktop is compatible, and with it everything below.
  have hdesktop : i.on .desktop = .compatible := by
    cases hv : i.on .desktop with
    | compatible => rfl
    | needsReview => exact absurd (hv ▸ Verdict.le_refl _) hlt
    | incompatible => exact absurd (hv ▸ (by decide)) hlt
  have hcowork : i.on .cowork = .compatible := by
    apply Verdict.le_antisymm
    · rw [← hdesktop]
      exact h.cowork_le_desktop
    · exact Verdict.compatible_le _
  have hnone : i.isNone = true := by
    rw [isNone_iff]
    intro t
    cases t with
    | desktop => exact hdesktop
    | cowork => exact hcowork
    | code => exact h.code_eq
  rw [hi] at hnone
  exact absurd hnone (by decide)

end IsGraded

end Impact

/-- The impacts that rules may name are graded. -/
theorem Template.isGraded_impact (t : Template) : t.impact.IsGraded := by
  cases t <;> exact ⟨by decide, by decide, rfl⟩

namespace Evidence

variable {es : List Evidence}

/-- The verdicts of evidence with graded impacts are graded. -/
theorem isGraded_verdicts (h : ∀ e ∈ es, e.impact.IsGraded) : (verdicts es).IsGraded where
  cowork_le_desktop := (verdicts_on_le_iff es .cowork _).mpr fun e he =>
    Verdict.le_trans (h e he).cowork_le_desktop (on_le_verdicts he .desktop)
  cowork_le_review := (verdicts_on_le_iff es .cowork _).mpr fun e he => (h e he).cowork_le_review
  code_eq := by
    apply Verdict.le_antisymm
    · rw [verdicts_on_le_iff]
      intro e he
      rw [(h e he).code_eq]
      exact Verdict.le_refl _
    · exact Verdict.compatible_le _

end Evidence

namespace Analyzer

variable {a : Analyzer} {d : Disk} {path : Text}

/-- What an analysis reports has a graded impact, or is a list of surfaces, which supports a surface
or does not. -/
theorem isGraded_or_isDeclared {r : Result} (h : a.analyze d path = .ok r) {e : Evidence}
    (he : e ∈ r.evidence) :
    e.impact.IsGraded ∨ ∃ declared file, e.IsDeclared declared file := by
  obtain ⟨c, found, notes, hs, rfl⟩ := exists_of_analyze h
  have hfound : e ∈ (a.scans c).flatMap (·.task.run.1) := by
    rw [← found_eq_scans hs]
    exact (List.mem_filter.mp he).1
  obtain ⟨x, hx, he⟩ := List.mem_flatMap.mp hfound
  have hfinds : x.scanner.Finds x.file x.task.run.1 :=
    Contents.finds_of_mem_scans (List.mem_filter.mp hx).1
  rcases hfinds.of_mem he with hruled | ⟨-, declared, hdeclared⟩
  · obtain ⟨t, ht⟩ := hruled.exists_template
    rw [ht]
    exact .inl t.isGraded_impact
  · exact .inr ⟨declared, x.file, hdeclared⟩

end Analyzer

/-- Without lists of surfaces, verdicts follow the order of the surfaces. Whatever the rules and the
settings are, if an analysis gives a result and reports no list of surfaces, then the desktop is
restricted at least as much as the shared workspace, which is never out, and the local environment
not at all; and everything reported demands at least a review on the desktop. If the local
environment is restricted, then a list of surfaces is reported that leaves it out. -/
theorem undeclared_verdicts_graded (a : Analyzer) (d : Disk) (path : Text) (r : Result)
    (h : a.analyze d path = .ok r) :
    ((∀ e ∈ r.evidence, e.source ≠ .declaration) →
      r.analyzed.on .cowork ≤ r.analyzed.on .desktop ∧
        r.analyzed.on .code ≤ r.analyzed.on .cowork ∧
        r.analyzed.on .cowork ≠ .incompatible ∧ r.analyzed.on .code = .compatible ∧
        ∀ e ∈ r.evidence, .needsReview ≤ e.impact.on .desktop) ∧
      (r.analyzed.on .code ≠ .compatible →
        ∃ e ∈ r.evidence, e.source = .declaration ∧ e.impact.on .code = .incompatible) := by
  obtain ⟨c, found, notes, -, hr⟩ := Analyzer.exists_of_analyze h
  have hanalyzed : r.analyzed = Evidence.verdicts r.evidence := by rw [hr]; rfl
  constructor
  · intro hundeclared
    have hgraded : ∀ e ∈ r.evidence, e.impact.IsGraded := by
      intro e he
      rcases Analyzer.isGraded_or_isDeclared h he with hg | ⟨declared, file, hd⟩
      · exact hg
      · exact absurd hd.source_eq (hundeclared e he)
    have hverdicts : r.analyzed.IsGraded := by
      rw [hanalyzed]
      exact Evidence.isGraded_verdicts hgraded
    refine ⟨hverdicts.cowork_le_desktop, hverdicts.code_le_cowork,
      hverdicts.cowork_ne_incompatible, hverdicts.code_eq, fun e he => ?_⟩
    have hrestricts : e.isInformational = false := by
      rw [hr] at he
      exact Analyzer.isInformational_of_mem_resultOf he
    exact (hgraded e he).review_le_desktop hrestricts
  · intro hcode
    rw [hanalyzed] at hcode
    -- Some evidence has the verdict, and since it is not graded it is a list of surfaces.
    obtain ⟨e, he, hverdict⟩ := Evidence.exists_on_eq hcode
    rw [← hverdict] at hcode
    rcases Analyzer.isGraded_or_isDeclared h he with hg | ⟨declared, file, hd⟩
    · exact absurd hg.code_eq hcode
    · refine ⟨e, he, hd.source_eq, ?_⟩
      have hon := hd.on_eq .code
      split at hon
      · exact absurd hon hcode
      · exact hon

/-- A disk with a plugin for the shared workspace alone. -/
def narrowDisk : Disk where
  root := .directory [("p", .directory
    [("plugin.json", .file "\x7b\"name\":\"x\",\"targets\":[\"cowork\"]\x7d".toUTF8.toList)])]
  current := []

/-- The plugin with a script declares nothing, and its verdicts are graded; the one for the shared
workspace alone turns the order around, by a list that leaves the local environment out. -/
theorem undeclared_verdicts_graded_scripted :
    (∃ r, bundledAnalyzer.analyze scriptedDisk "/p" = .ok r ∧ r.evidence ≠ [] ∧
      r.analyzed.on .cowork ≤ r.analyzed.on .desktop ∧
      r.analyzed.on .code ≤ r.analyzed.on .cowork ∧
      ∀ e ∈ r.evidence, .needsReview ≤ e.impact.on .desktop) ∧
    ∃ r, bundledAnalyzer.analyze narrowDisk "/p" = .ok r ∧
      ¬r.analyzed.on .code ≤ r.analyzed.on .cowork ∧
      ∃ e ∈ r.evidence, e.source = .declaration ∧ e.impact.on .code = .incompatible := by
  have hnarrow : (bundledAnalyzer.analyze narrowDisk "/p").map
      (fun r => (r.analyzed.on .code, r.analyzed.on .cowork)) =
        .ok (.incompatible, .compatible) := by
    decide +kernel
  obtain ⟨r, hr, hsources⟩ := Attempt.map_eq_ok_iff.mp sources_scripted
  obtain ⟨r', hr', hpair⟩ := Attempt.map_eq_ok_iff.mp hnarrow
  obtain ⟨hcode, hcowork⟩ := Prod.mk.inj hpair
  have hundeclared : ∀ e ∈ r.evidence, e.source ≠ .declaration := by
    intro e he
    have hmem : e.source ∈ r.evidence.map (·.source) := List.mem_map_of_mem he
    rw [hsources, List.mem_singleton] at hmem
    rw [hmem]
    decide
  have hsome : r.evidence ≠ [] := by
    rintro hnil
    rw [hnil] at hsources
    cases hsources
  obtain ⟨hdesktop, horder, -, -, hreview⟩ :=
    (undeclared_verdicts_graded bundledAnalyzer scriptedDisk "/p" r hr).1 hundeclared
  have hdeclared := (undeclared_verdicts_graded bundledAnalyzer narrowDisk "/p" r' hr').2
    (by rw [hcode]; decide)
  refine ⟨⟨r, hr, hsome, hdesktop, horder, hreview⟩, r', hr', ?_, hdeclared⟩
  rw [hcode, hcowork]
  decide

end SurfaceAudit
