import SurfaceAudit.Value.Container
import SurfaceAudit.Verdict

/-!
# Surfaces and impacts

The surfaces that a plugin may run on, from the most to the least restricted, and the impact of a
finding: a verdict for each surface. Rules name their impact by one of four templates.
-/

namespace SurfaceAudit

/-- A surface that a plugin may run on. -/
inductive Target where
  /-- The desktop, which runs no local scripts. -/
  | desktop
  /-- The shared workspace, which runs scripts in a closed machine. -/
  | cowork
  /-- The local environment with all its programs. -/
  | code
  deriving DecidableEq, Inhabited

namespace Target

/-- All surfaces, the most restricted first. -/
def all : List Target := [.desktop, .cowork, .code]

/-- The name of a surface. -/
def name : Target → Text
  | .desktop => "claude-desktop"
  | .cowork => "cowork"
  | .code => "claude-code"

/-- The surface that a value names. -/
def ofValue (v : Value) : Attempt Target :=
  match v.text?.bind fun t => all.find? (·.name == t) with
  | some target => .ok target
  | none => v.quoted.bind fun shown => .error (.notTarget shown)

/-- Every surface is in the list of all. -/
theorem mem_all (t : Target) : t ∈ all := by cases t <;> decide

end Target

/-- A verdict for each surface. -/
structure Impact where
  /-- The verdict for the desktop. -/
  desktop : Verdict
  /-- The verdict for the shared workspace. -/
  cowork : Verdict
  /-- The verdict for the local environment. -/
  code : Verdict
  deriving DecidableEq, Inhabited

namespace Impact

/-- The verdict for a surface. -/
def on (i : Impact) : Target → Verdict
  | .desktop => i.desktop
  | .cowork => i.cowork
  | .code => i.code

/-- The impact with given verdicts. -/
def of (f : Target → Verdict) : Impact := ⟨f .desktop, f .cowork, f .code⟩

/-- No restriction on any surface. -/
def none : Impact := ⟨.compatible, .compatible, .compatible⟩

/-- The more restrictive verdict on each surface. -/
def worse (a b : Impact) : Impact := of fun t => (a.on t).worse (b.on t)

/-- The most restrictive verdict on each surface; without any impact, none. -/
def worst (is : List Impact) : Impact := is.foldl worse none

/-- No surface is restricted. -/
def isNone (i : Impact) : Bool := Target.all.all fun t => i.on t == .compatible

/-- The impact as a mapping from the names of the surfaces to those of the verdicts. -/
def toValue (i : Impact) : Value :=
  .map (Target.all.map fun t => (.text t.name, .text (i.on t).name))

/-- The value under the name of a surface in a mapping. What has no names to look up, but seems to
hold one, cannot be asked for it. -/
def fieldOf (v : Value) (t : Target) : Attempt Value := do
  if ← v.holdsText t.name then
    match v.layer with
    | .map entries => return Value.field entries t.name
    | v => .error (.kind (.badIndex v.kindName))
  else .error (.targetMissing t.name)

/-- The impact that a mapping describes. The surfaces are looked at in order, first for being there
and then for their verdict. -/
def ofValue (v : Value) : Attempt Impact := do
  let desktop ← (fieldOf v .desktop).bind Verdict.ofValue
  let cowork ← (fieldOf v .cowork).bind Verdict.ofValue
  let code ← (fieldOf v .code).bind Verdict.ofValue
  return ⟨desktop, cowork, code⟩

/-- An impact that is given by surface has on each what is given for it. -/
@[simp] theorem on_of (f : Target → Verdict) (t : Target) : (of f).on t = f t := by
  cases t <;> rfl

/-- The impact that restricts nothing is compatible on every surface. -/
@[simp] theorem on_none (t : Target) : none.on t = .compatible := by cases t <;> rfl

/-- The worse of two impacts is taken surface by surface. -/
theorem on_worse (a b : Impact) (t : Target) : (worse a b).on t = (a.on t).worse (b.on t) := by
  simp [worse]

/-- Impacts are equal if they are so on every surface. -/
theorem ext_on {a b : Impact} (h : ∀ t, a.on t = b.on t) : a = b := by
  cases a
  cases b
  have := h .desktop
  have := h .cowork
  have := h .code
  simp_all [on]

end Impact

/-- The impacts that rules may name. -/
inductive Template where
  /-- No restriction. -/
  | allOk
  /-- The desktop needs a review. -/
  | reviewDesktop
  /-- The desktop is out. -/
  | incompatibleDesktop
  /-- The desktop is out, and the shared workspace needs a review. -/
  | incompatibleDesktopReviewCowork
  deriving DecidableEq, Inhabited

namespace Template

/-- All templates. -/
def all : List Template :=
  [.allOk, .reviewDesktop, .incompatibleDesktop, .incompatibleDesktopReviewCowork]

/-- The name of a template. -/
def name : Template → Text
  | .allOk => "all-ok"
  | .reviewDesktop => "needs-review-desktop"
  | .incompatibleDesktop => "incompatible-desktop"
  | .incompatibleDesktopReviewCowork => "desktop-incompatible-cowork-review"

/-- The impact of a template. -/
def impact : Template → Impact
  | .allOk => .none
  | .reviewDesktop => ⟨.needsReview, .compatible, .compatible⟩
  | .incompatibleDesktop => ⟨.incompatible, .compatible, .compatible⟩
  | .incompatibleDesktopReviewCowork => ⟨.incompatible, .needsReview, .compatible⟩

/-- The template with a name. -/
def ofText? (t : Text) : Option Template := all.find? (·.name == t)

end Template

end SurfaceAudit
