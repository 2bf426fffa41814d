import SurfaceAudit.Declaration
import SurfaceAudit.Hooks
import SurfaceAudit.Markdown.Commands
import SurfaceAudit.Proofs.CommandLayers
import SurfaceAudit.Proofs.HookShapes
import SurfaceAudit.Proofs.JsonValues
import SurfaceAudit.Proofs.Reach
import SurfaceAudit.Proofs.Scanners
import SurfaceAudit.Proofs.Steps
import SurfaceAudit.Rules.Bundled
import SurfaceAudit.Script.Evidence
import SurfaceAudit.Servers
import Mathlib.Data.List.Perm.Subperm

/-!
# What scanners tolerate

The scanners take any value for what they scan. They write some of its parts, and a part within
reach is written unless an integer in it has too many digits (`Value.isShort`), which is then the
only thing that they fail for (`scanners_return_unless_overlong`). One more entry in a list of
tools, in the list of an event or among servers takes no evidence away, unless that entry makes the
scanner fail.
-/

namespace SurfaceAudit

namespace Number

/-- A number is below what its bits allow. -/
theorem lt_of_log2_lt {n b k : Nat} (h : n.log2 < b) (hk : Nat.pow 2 b ≤ k) : n < k := by
  by_cases hzero : n = 0
  · subst hzero
    exact lt_of_lt_of_le (Nat.pow_pos (by decide)) hk
  · exact lt_of_lt_of_le ((Nat.log2_lt hzero).mp h) hk

/-- An integer has a text exactly if it is within the limit on digits. -/
theorem exists_writeInt_iff {n : Int} :
    (∃ t, writeInt n = .ok t) ↔ n.natAbs < Nat.pow 10 digitLimit := by
  constructor
  · rintro ⟨t, h⟩
    unfold writeInt at h
    split at h
    · rename_i hn
      rcases Bool.or_eq_true_iff.mp hn with hn | hn
      · -- The quick test is on bits: 14000 of them make no more than 4300 digits.
        exact lt_of_log2_lt (of_decide_eq_true hn) (by decide +kernel)
      · exact of_decide_eq_true hn
    · cases h
  · exact fun h => ⟨_, writeInt_of_lt h⟩

/-- Writing an integer fails for nothing but its digits. -/
theorem failsOnly_writeInt (n : Int) :
    Attempt.FailsOnly (· = .tooManyDigits none) (writeInt n) := by
  unfold writeInt
  exact .ite (.ok _) (.error rfl)

end Number

namespace Attempt

variable {α β : Type}

/-- An operation gives a value exactly if a condition holds, and what it fails for is an integer
with too many digits to be written. -/
structure WritesIff (c : Prop) (x : Attempt α) : Prop where
  /-- When it gives a value. -/
  ok_iff : (∃ a, x = .ok a) ↔ c
  /-- What it fails for. -/
  failsOnly : FailsOnly (· = .tooManyDigits none) x

namespace WritesIff

variable {c d : Prop} {x : Attempt α} {g : α → Attempt β}

/-- A value is given without a condition. -/
theorem ok (a : α) : WritesIff True (.ok a) := ⟨by simp, .ok a⟩

/-- A condition may be put in other words. -/
theorem congr (h : WritesIff c x) (hcd : c ↔ d) : WritesIff d x := ⟨h.ok_iff.trans hcd, h.failsOnly⟩

/-- A chain of operations gives a value if all of them do. -/
theorem bind (h : WritesIff c x) (hg : ∀ a, WritesIff d (g a)) : WritesIff (c ∧ d) (x >>= g) := by
  refine ⟨⟨fun ⟨b, hb⟩ => ?_, fun ⟨hc, hd⟩ => ?_⟩, h.failsOnly.bind fun a => (hg a).failsOnly⟩
  · obtain ⟨a, ha, hb⟩ := bind_eq_ok_iff.mp hb
    exact ⟨h.ok_iff.mp ⟨a, ha⟩, (hg a).ok_iff.mp ⟨b, hb⟩⟩
  · obtain ⟨a, ha⟩ := h.ok_iff.mpr hc
    obtain ⟨b, hb⟩ := (hg a).ok_iff.mpr hd
    exact ⟨b, bind_eq_ok_iff.mpr ⟨a, ha, hb⟩⟩

/-- What is made of a value is given under the same condition. -/
theorem map (h : WritesIff c x) (k : α → β) : WritesIff c (x.map k) := by
  refine ⟨?_, h.failsOnly.map k⟩
  rw [← h.ok_iff]
  simp only [map_eq_ok_iff]
  exact ⟨fun ⟨_, a, ha, _⟩ => ⟨a, ha⟩, fun ⟨a, ha⟩ => ⟨k a, a, ha, rfl⟩⟩

/-- What is done to the value of an operation does not fail. -/
theorem bind_ok (h : WritesIff c x) (k : α → β) : WritesIff c (x >>= fun a => .ok (k a)) :=
  (h.bind fun a => .ok (k a)).congr (by simp)

/-- An operation over a list gives a value if it does for each member. -/
theorem mapM {p : α → Prop} (h : ∀ a, WritesIff (p a) (g a)) (xs : List α) :
    WritesIff (∀ a ∈ xs, p a) (xs.mapM g) := by
  refine ⟨?_, .mapM (fun a => (h a).failsOnly) xs⟩
  rw [exists_mapM_eq_ok_iff]
  exact forall₂_congr fun a _ => (h a).ok_iff

end WritesIff

/-- An operation that gives values for a list gives some of them for a part of it. -/
theorem exists_sublist_mapM {f : α → Attempt β} {xs xs' : List α} {ys' : List β}
    (hs : xs.Sublist xs') (h : xs'.mapM f = .ok ys') :
    ∃ ys, xs.mapM f = .ok ys ∧ ys.Sublist ys' := by
  rw [mapM_eq_ok_iff] at h
  simp only [mapM_eq_ok_iff]
  induction hs generalizing ys' with
  | slnil => exact ⟨[], .nil, List.nil_sublist ys'⟩
  | cons x _ ih =>
    cases h with
    | cons _ h =>
      obtain ⟨ys, hys, hsub⟩ := ih h
      exact ⟨ys, hys, hsub.cons _⟩
  | cons_cons x _ ih =>
    cases h with
    | cons hx h =>
      obtain ⟨ys, hys, hsub⟩ := ih h
      exact ⟨_ :: ys, .cons hx hys, hsub.cons_cons _⟩

/-- So it is for what is found at the members. -/
theorem exists_sublist_found {f : α → Attempt (Option β)} {xs xs' : List α} {ys' : List β}
    (hs : xs.Sublist xs') (h : (xs'.mapM f >>= fun found => .ok (found.filterMap id)) = .ok ys') :
    ∃ ys, (xs.mapM f >>= fun found => .ok (found.filterMap id)) = .ok ys ∧ ys.Sublist ys' := by
  obtain ⟨found', hfound', h⟩ := bind_eq_ok_iff.mp h
  cases h
  obtain ⟨found, hfound, hsub⟩ := exists_sublist_mapM hs hfound'
  exact ⟨_, bind_eq_ok_iff.mpr ⟨found, hfound, rfl⟩, hsub.filterMap id⟩

end Attempt

namespace Value

mutual

/-- All integers that are written with the value are within the limit on digits. -/
def isShort : Value → Bool
  | .int n => n.natAbs < Nat.pow 10 Number.digitLimit
  | .list items => areShort items
  | .tuple items => areShort items
  | .set items => areShort items
  | .map entries => areShortEntries entries
  | .knot drawing _ _ => isShort drawing
  | _ => true

/-- `isShort` for each value. -/
def areShort : List Value → Bool
  | [] => true
  | v :: r => isShort v && areShort r

/-- `isShort` for each key and value. -/
def areShortEntries : List (Value × Value) → Bool
  | [] => true
  | (k, v) :: r => isShort k && isShort v && areShortEntries r

end

open Attempt (WritesIff)

mutual

/-- A value has a written form exactly if its integers do. -/
theorem writesIff_quoted : ∀ v : Value, WritesIff (v.isShort = true) v.quoted
  | .null | .bool _ | .real _ | .text _ | .bytes _ | .date _ | .moment _ | .again _ | .link _ =>
    (WritesIff.ok _).congr (by simp [isShort])
  | .int n => by
    rw [isShort, quoted, decide_eq_true_iff]
    exact ⟨Number.exists_writeInt_iff, Number.failsOnly_writeInt n⟩
  | .list items => by
    rw [isShort, quoted]
    exact (writesIff_quotedAll items).map _
  | .tuple items => by
    rw [isShort, quoted]
    exact (writesIff_quotedAll items).map _
  | .set items => by
    rw [isShort, quoted]
    exact (writesIff_quotedAll items).map _
  | .map entries => by
    rw [isShort, quoted]
    exact (writesIff_quotedEntries entries).map _
  | .knot drawing _ _ => by
    rw [isShort, quoted]
    exact writesIff_quoted drawing

/-- `writesIff_quoted` for each value. -/
theorem writesIff_quotedAll : ∀ vs : List Value, WritesIff (areShort vs = true) (quotedAll vs)
  | [] => by
    rw [areShort, quotedAll]
    exact (WritesIff.ok _).congr (by simp)
  | v :: r => by
    rw [areShort, quotedAll, Bool.and_eq_true]
    exact (writesIff_quoted v).bind fun _ => (writesIff_quotedAll r).bind_ok _

/-- `writesIff_quoted` for each key and value. -/
theorem writesIff_quotedEntries : ∀ es : List (Value × Value),
    WritesIff (areShortEntries es = true) (quotedEntries es)
  | [] => by
    rw [areShortEntries, quotedEntries]
    exact (WritesIff.ok _).congr (by simp)
  | (k, v) :: r => by
    rw [areShortEntries, quotedEntries, Bool.and_eq_true, Bool.and_eq_true, and_assoc]
    exact (writesIff_quoted k).bind fun _ =>
      (writesIff_quoted v).bind fun _ => (writesIff_quotedEntries r).bind_ok _

end

/-- A value has a text by itself exactly if its integers do. -/
theorem writesIff_shown (v : Value) : WritesIff (v.isShort = true) v.shown := by
  cases v with
  | text t => exact (WritesIff.ok _).congr (by simp [isShort])
  | date d => exact (WritesIff.ok _).congr (by simp [isShort])
  | moment m => exact (WritesIff.ok _).congr (by simp [isShort])
  | _ => exact writesIff_quoted _

/-- The texts of values. -/
theorem writesIff_mapM_shown (vs : List Value) :
    WritesIff (∀ v ∈ vs, v.isShort = true) (vs.mapM shown) :=
  .mapM writesIff_shown vs

/-- The elements of a value, none if it is no sequence. -/
def elementsOrNone (v : Value) : List Value := v.items?.getD []

/-- A text has no elements. -/
@[simp] theorem elementsOrNone_text (t : Text) : elementsOrNone (.text t) = [] := rfl

/-- The missing value has no elements. -/
@[simp] theorem elementsOrNone_null : elementsOrNone .null = [] := rfl

/-- A mapping without entries has nothing under any key. -/
@[simp] theorem field_nil (key : Text) : field [] key = .null := rfl

/-- The entries of a value, none if it is no mapping. -/
def entriesOrNone (v : Value) : List (Value × Value) := v.entries?.getD []

/-- A value of JSON is short. -/
theorem isShort_of_isJson {v : Value} (h : Json.IsJson v) : v.isShort = true :=
  (writesIff_shown v).ok_iff.mp h.exists_shown

end Value

open Attempt (WritesIff)

/-- A call of a scanner, with what it is to scan. -/
inductive ScanCall where
  /-- For tools that are allowed. -/
  | tools (allowed : Value)
  /-- For surfaces that are listed. -/
  | targets (targets : Value)
  /-- For the fields before a document. -/
  | fields (fields : Value)
  /-- For a plugin manifest. -/
  | manifest (manifest : Value)
  /-- For a hook configuration. -/
  | hooks (config : Value)
  /-- For a server configuration. -/
  | servers (config : Value)
  /-- For the commands in a document. -/
  | commands (content : Text)
  /-- For the imports in a Python script. -/
  | python (content : Text)
  /-- For the imports in a JavaScript script. -/
  | node (content : Text)
  /-- For a script file, by its path. -/
  | script

namespace ScanCall

/-- What a call finds in a file. -/
def run (rules : RuleTables) (file : Text) : ScanCall → Attempt (List Evidence)
  | .tools v => Declaration.toolsEvidence rules file v
  | .targets v => (Declaration.targetsEvidence? file v).map Option.toList
  | .fields v => Declaration.fieldsEvidence rules file v
  | .manifest v => Declaration.manifestEvidence file v
  | .hooks v => Hooks.evidence rules file v
  | .servers v => Servers.evidence rules file v
  | .commands content => .ok (Markdown.commandEvidence rules file content)
  | .python content => .ok (Script.pythonEvidence rules file content)
  | .node content => .ok (Script.nodeEvidence rules file content)
  | .script => .ok (Script.fileEvidence? rules file).toList

/-- The value that is scanned. -/
def value? : ScanCall → Option Value
  | .tools v | .targets v | .fields v | .manifest v | .hooks v | .servers v => some v
  | .commands _ | .python _ | .node _ | .script => none

/-- The values that are written for a list of tools. -/
def writtenTools (allowed : Value) : List Value := allowed.elementsOrNone.filter (!·.isNull)

/-- The values that are written for a server: the arguments and the name, if the rules know the
program. -/
def writtenServer (rules : RuleTables) (name server : Value) : List Value :=
  match Servers.program? server with
  | none => []
  | some (program, args) =>
    match rules.classifyBinary program with
    | none => []
    | some _ => args.elementsOrNone ++ [name]

/-- The values that a call writes: tools and surfaces, the names of events with handlers, and the
arguments and names of servers. -/
def written (rules : RuleTables) : ScanCall → List Value
  | .tools v => writtenTools v
  | .targets v => v.elementsOrNone
  | .fields v => writtenTools (Value.field v.entriesOrNone "allowed-tools") ++
      (Value.field v.entriesOrNone "targets").elementsOrNone
  | .manifest v => (Value.field v.entriesOrNone "targets").elementsOrNone
  | .hooks v => (Hooks.handlers (Hooks.events v)).map (·.1)
  | .servers v => (Servers.servers v).flatMap fun (name, server) => writtenServer rules name server
  | .commands _ | .python _ | .node _ | .script => []

end ScanCall

section Written

variable {rules : RuleTables} {file : Text}

namespace Declaration

/-- The names of tools are read exactly if the tools in a list are short. -/
theorem writesIff_toolNames (allowed : Value) :
    WritesIff (∀ v ∈ ScanCall.writtenTools allowed, v.isShort = true) (toolNames allowed) := by
  unfold toolNames
  split
  · exact (WritesIff.ok _).congr (by simp [ScanCall.writtenTools])
  · unfold ScanCall.writtenTools Value.elementsOrNone
    cases allowed.items? with
    | none => exact (WritesIff.ok _).congr (by simp)
    | some items => exact (Value.writesIff_mapM_shown _).bind_ok _

/-- The evidence on tools is found exactly if the tools in a list are short. -/
theorem writesIff_toolsEvidence (allowed : Value) :
    WritesIff (∀ v ∈ ScanCall.writtenTools allowed, v.isShort = true)
      (toolsEvidence rules file allowed) :=
  (writesIff_toolNames allowed).map _

/-- The evidence on surfaces is found exactly if the surfaces in the list are short. -/
theorem writesIff_targetsEvidence? (targets : Value) :
    WritesIff (∀ v ∈ targets.elementsOrNone, v.isShort = true)
      (targetsEvidence? file targets) := by
  unfold targetsEvidence? Value.elementsOrNone
  cases targets.items? with
  | none => exact (WritesIff.ok _).congr (by simp)
  | some items =>
    refine ((Value.writesIff_mapM_shown items).bind (d := True) fun declared => ?_).congr
      (and_iff_left trivial)
    dsimp only
    split
    · exact .ok _
    · exact .ok _

/-- The evidence on the fields of a document is found exactly if the tools and the surfaces in them
are short. -/
theorem writesIff_fieldsEvidence (fields : Value) :
    WritesIff ((∀ v ∈ ScanCall.writtenTools (Value.field fields.entriesOrNone "allowed-tools"),
        v.isShort = true) ∧
      ∀ v ∈ (Value.field fields.entriesOrNone "targets").elementsOrNone, v.isShort = true)
      (fieldsEvidence rules file fields) := by
  unfold fieldsEvidence Value.entriesOrNone
  cases fields.entries? with
  | none => exact (WritesIff.ok _).congr (by simp [ScanCall.writtenTools])
  | some entries =>
    have htargets (tools : List Evidence) :
        WritesIff (∀ v ∈ (Value.field entries "targets").elementsOrNone, v.isShort = true)
          (targetsEvidence? file (Value.field entries "targets") >>= fun targets =>
            .ok (tools ++ targets.toList)) :=
      (writesIff_targetsEvidence? _).bind_ok _
    dsimp only [Option.getD_some]
    split
    · rename_i hnull
      rw [hnull]
      exact (htargets []).congr (by simp [ScanCall.writtenTools])
    · exact (writesIff_toolsEvidence _).bind htargets

/-- The evidence on a manifest is found exactly if the surfaces in it are short. -/
theorem writesIff_manifestEvidence (manifest : Value) :
    WritesIff (∀ v ∈ (Value.field manifest.entriesOrNone "targets").elementsOrNone,
      v.isShort = true) (manifestEvidence file manifest) := by
  unfold manifestEvidence Value.entriesOrNone
  cases manifest.entries? with
  | none => exact (WritesIff.ok _).congr (by simp)
  | some entries => exact (writesIff_targetsEvidence? _).bind_ok _

end Declaration

/-- The evidence on hooks is found exactly if the names of the events that have handlers are short.
-/
theorem Hooks.writesIff_evidence (config : Value) :
    WritesIff (∀ v ∈ (handlers (events config)).map (·.1), v.isShort = true)
      (evidence rules file config) := by
  unfold evidence
  rw [List.forall_mem_map]
  exact (WritesIff.mapM (fun x : Value × List (Value × Value) =>
    (Value.writesIff_shown x.1).bind_ok _) _).bind_ok _

namespace Servers

/-- The line that starts a server is written exactly if the arguments are short. -/
theorem writesIff_launchLine (program : Text) (args : Value) :
    WritesIff (∀ v ∈ args.elementsOrNone, v.isShort = true) (launchLine program args) := by
  unfold launchLine Value.elementsOrNone
  cases args.items? with
  | none => exact (WritesIff.ok _).congr (by simp)
  | some items => exact (Value.writesIff_mapM_shown items).bind_ok _

/-- The evidence on a server is found exactly if what is written of the server is short. -/
theorem writesIff_serverEvidence? (name server : Value) :
    WritesIff (∀ v ∈ ScanCall.writtenServer rules name server, v.isShort = true)
      (serverEvidence? rules file name server) := by
  unfold serverEvidence? ScanCall.writtenServer
  cases program? server with
  | none => exact (WritesIff.ok _).congr (by simp)
  | some found =>
    dsimp only
    cases rules.classifyBinary found.1 with
    | none => exact (WritesIff.ok _).congr (by simp)
    | some k =>
      refine ((writesIff_launchLine found.1 found.2).bind fun launch =>
        (Value.writesIff_shown name).bind_ok _).congr ?_
      rw [List.forall_mem_append, List.forall_mem_singleton]

/-- The evidence on servers is found exactly if what is written of each of them is short. -/
theorem writesIff_evidence (config : Value) :
    WritesIff (∀ v ∈ (servers config).flatMap fun (name, server) =>
      ScanCall.writtenServer rules name server, v.isShort = true) (evidence rules file config) := by
  unfold evidence
  have hall : WritesIff (∀ x ∈ servers config, ∀ v ∈ ScanCall.writtenServer rules x.1 x.2,
        v.isShort = true)
      ((servers config).mapM fun (name, server) => serverEvidence? rules file name server) :=
    .mapM (fun x : Value × Value => writesIff_serverEvidence? x.1 x.2) _
  refine (hall.bind_ok _).congr ?_
  simp only [List.mem_flatMap]
  exact ⟨fun h v ⟨x, hx, hv⟩ => h x hx v hv, fun h x hx v hv => h v ⟨x, hx, hv⟩⟩

end Servers

/-- A call gives evidence exactly if what it writes is short. -/
theorem ScanCall.writesIff_run (c : ScanCall) :
    WritesIff (∀ v ∈ c.written rules, v.isShort = true) (c.run rules file) := by
  cases c with
  | tools allowed => exact Declaration.writesIff_toolsEvidence allowed
  | targets targets => exact (Declaration.writesIff_targetsEvidence? targets).map _
  | fields fields =>
    exact (Declaration.writesIff_fieldsEvidence fields).congr List.forall_mem_append.symm
  | manifest manifest => exact Declaration.writesIff_manifestEvidence manifest
  | hooks config => exact Hooks.writesIff_evidence config
  | servers config => exact Servers.writesIff_evidence config
  | _ => exact (WritesIff.ok _).congr (by simp [written])

end Written

/-! ## Values of JSON -/

namespace Json.IsJson

variable {v : Value}

/-- The elements of a value of JSON are values of JSON. -/
theorem of_mem_elementsOrNone (h : IsJson v) : ∀ w ∈ v.elementsOrNone, IsJson w := by
  unfold Value.elementsOrNone
  cases hi : v.items? with
  | none => simp
  | some items => exact h.of_mem_items hi

/-- What a value of JSON has under a key is a value of JSON. -/
theorem field_entriesOrNone (h : IsJson v) (key : Text) :
    IsJson (Value.field v.entriesOrNone key) := by
  unfold Value.entriesOrNone
  cases he : v.entries? with
  | none => exact .null
  | some entries => exact h.field he key

/-- The arguments of a server of JSON. -/
theorem args (h : IsJson v) {program : Text} {args : Value}
    (hp : Servers.program? v = some (program, args)) : IsJson args := by
  unfold Servers.program? at hp
  split at hp
  · split at hp
    · cases hp
    · cases hp
      exact .null
  · split at hp
    · cases hp
    · rename_i entries he
      split at hp
      · split at hp
        · cases hp
        · cases hp
          exact h.field he "args"
      · cases hp

/-- The entries of a mapping of JSON. -/
theorem areEntries (h : IsJson v) {es : List (Value × Value)} (he : v.entries? = some es) :
    AreEntries es := by
  cases h with
  | map keys values =>
    cases he
    exact ⟨keys, values⟩
  | list _ => cases he
  | _ => cases he

/-- The entries of a value of JSON, or those of the mapping that it holds under a key. -/
theorem areEntries_wrapped (h : IsJson v) (key : Text) : AreEntries (match v.entries? with
    | none => []
    | some entries =>
      match Value.lookup entries key with
      | none => entries
      | some inner => inner.entries?.getD []) := by
  have hnone : AreEntries [] := ⟨by simp, by simp⟩
  cases he : v.entries? with
  | none => exact hnone
  | some entries =>
    dsimp only
    cases hi : Value.lookup entries key with
    | none => exact h.areEntries he
    | some inner =>
      have hinner : IsJson inner := by
        have hfield := h.field he key
        rwa [Value.field, hi] at hfield
      dsimp only
      cases he' : inner.entries? with
      | none => exact hnone
      | some entries' => exact hinner.areEntries he'

end Json.IsJson

/-- What a call writes of a value of JSON is of JSON. -/
theorem ScanCall.isJson_of_mem_written {rules : RuleTables} {c : ScanCall}
    (h : ∀ v, c.value? = some v → Json.IsJson v) : ∀ v ∈ c.written rules, Json.IsJson v := by
  intro v hv
  have hnames {es : List (Value × Value)} (hes : Json.AreEntries es) {x : Value × Value}
      (hx : x ∈ es) : Json.IsJson x.1 := by
    obtain ⟨t, ht⟩ := hes.1 x hx
    exact ht ▸ .text t
  -- Each call writes other parts of its value, and parts of a value of JSON are of JSON.
  cases c with
  | tools w => exact (h w rfl).of_mem_elementsOrNone v (List.mem_filter.mp hv).1
  | targets w => exact (h w rfl).of_mem_elementsOrNone v hv
  | fields w =>
    rcases List.mem_append.mp hv with hv | hv
    · exact ((h w rfl).field_entriesOrNone _).of_mem_elementsOrNone v (List.mem_filter.mp hv).1
    · exact ((h w rfl).field_entriesOrNone _).of_mem_elementsOrNone v hv
  | manifest w => exact ((h w rfl).field_entriesOrNone _).of_mem_elementsOrNone v hv
  | hooks w =>
    obtain ⟨y, hy, rfl⟩ := List.mem_map.mp hv
    obtain ⟨x, hx, hy⟩ := List.mem_flatMap.mp hy
    obtain ⟨handler, -, rfl⟩ := List.mem_map.mp hy
    exact hnames ((h w rfl).areEntries_wrapped "hooks") hx
  | servers w =>
    obtain ⟨⟨name, server⟩, hx, hv⟩ := List.mem_flatMap.mp hv
    have hservers : Json.AreEntries (Servers.servers w) := (h w rfl).areEntries_wrapped "mcpServers"
    have hserver : Json.IsJson server := hservers.2 _ hx
    dsimp only [writtenServer] at hv
    split at hv
    · cases hv
    · rename_i program args hprogram
      split at hv
      · cases hv
      · rcases List.mem_append.mp hv with hv | hv
        · exact (hserver.args hprogram).of_mem_elementsOrNone v hv
        · obtain rfl := List.mem_singleton.mp hv
          exact hnames hservers hx
  | _ => cases hv

/-! ## More entries -/

namespace Value

/-- A value is a sequence, and another one is, with further elements in between. -/
structure Extends (v v' : Value) : Prop where
  /-- The elements of both. -/
  exists_items : ∃ items items', v.items? = some items ∧ v'.items? = some items' ∧
    items.Sublist items'

end Value

namespace ScanCall

/-- A call has more to scan than another: more tools, more entries in the list of an event, or more
servers, and all else is the same. The events and the servers stand in the configuration itself or
in a mapping of their own in it; in the configuration itself, the key of such a mapping is the name
of no server. -/
inductive Extends : ScanCall → ScanCall → Prop where
  /-- More tools. -/
  | tools {v v' : Value} (more : v.Extends v') : Extends (.tools v) (.tools v')
  /-- More tools in the fields before a document. -/
  | fields {v v' : Value} {es es' : List (Value × Value)} (entries : v.entries? = some es)
      (entries' : v'.entries? = some es')
      (more : (Value.field es "allowed-tools").Extends (Value.field es' "allowed-tools"))
      (same : Value.field es' "targets" = Value.field es "targets") :
      Extends (.fields v) (.fields v')
  /-- More entries in the list of an event. -/
  | event {v v' name list list' : Value} {a b : List (Value × Value)}
      (entries : v.entries? = some (a ++ (name, list) :: b))
      (entries' : v'.entries? = some (a ++ (name, list') :: b)) (more : list.Extends list') :
      Extends (.hooks v) (.hooks v')
  /-- More entries in the list of an event in a mapping of its own. -/
  | wrappedEvent {v v' inner inner' name list list' : Value} {es es' a b : List (Value × Value)}
      (entries : v.entries? = some es) (entries' : v'.entries? = some es')
      (wrapped : Value.lookup es "hooks" = some inner)
      (wrapped' : Value.lookup es' "hooks" = some inner')
      (events : inner.entries? = some (a ++ (name, list) :: b))
      (events' : inner'.entries? = some (a ++ (name, list') :: b)) (more : list.Extends list') :
      Extends (.hooks v) (.hooks v')
  /-- More servers. -/
  | server {v v' : Value} {es es' : List (Value × Value)} (entries : v.entries? = some es)
      (entries' : v'.entries? = some es') (more : es.Sublist es')
      (bare : Value.lookup es' "mcpServers" = none) : Extends (.servers v) (.servers v')
  /-- More servers in a mapping of their own. -/
  | wrappedServer {v v' inner inner' : Value} {es es' servers servers' : List (Value × Value)}
      (entries : v.entries? = some es) (entries' : v'.entries? = some es')
      (wrapped : Value.lookup es "mcpServers" = some inner)
      (wrapped' : Value.lookup es' "mcpServers" = some inner')
      (servers_eq : inner.entries? = some servers) (servers_eq' : inner'.entries? = some servers')
      (more : servers.Sublist servers') : Extends (.servers v) (.servers v')

end ScanCall

section Extends

variable {rules : RuleTables} {file : Text}

namespace Declaration

/-- A text is among distinct ones exactly if it is among all. -/
theorem mem_distinct {ts : List Text} {t : Text} : t ∈ distinct ts ↔ t ∈ ts := by
  have hfold (seen : List Text) : t ∈ ts.foldl
      (fun seen t => if seen.contains t then seen else seen ++ [t]) seen ↔ t ∈ seen ∨ t ∈ ts := by
    induction ts generalizing seen with
    | nil => simp
    | cons u r ih =>
      rw [List.foldl_cons, ih, List.mem_cons]
      split
      · rename_i hseen
        have hu : t = u → t ∈ seen := fun h => h ▸ List.contains_iff_mem.mp hseen
        tauto
      · rw [List.mem_append, List.mem_singleton, or_assoc]
  exact (hfold []).trans (by simp)

/-- The names of the tools in a list. -/
theorem toolNames_of_items {v : Value} {items : List Value} (h : v.items? = some items) :
    toolNames v = (items.filter (!·.isNull)).mapM Value.shown >>= fun shown =>
      .ok ((shown.map nameOf).filter (!·.isEmpty)) := by
  unfold toolNames
  split
  · cases h
  · rw [h]
    rfl

/-- More tools take no evidence away. -/
theorem exists_subperm_toolsEvidence {v v' : Value} (hv : v.Extends v') {es' : List Evidence}
    (h : toolsEvidence rules file v' = .ok es') :
    ∃ es, toolsEvidence rules file v = .ok es ∧ es.Subperm es' := by
  obtain ⟨items, items', hi, hi', hs⟩ := hv.exists_items
  obtain ⟨names', hnames', rfl⟩ := Attempt.map_eq_ok_iff.mp h
  rw [toolNames_of_items hi'] at hnames'
  obtain ⟨shown', hshown', hnames'⟩ := Attempt.bind_eq_ok_iff.mp hnames'
  cases hnames'
  obtain ⟨shown, hshown, hsub⟩ := Attempt.exists_sublist_mapM (hs.filter (!·.isNull)) hshown'
  have hnames := toolNames_of_items hi
  rw [hshown] at hnames
  have hes : toolsEvidence rules file v = .ok _ := Attempt.map_eq_ok_iff.mpr ⟨_, hnames, rfl⟩
  refine ⟨_, hes, List.subperm_of_subset (of_toolsEvidence hes).2.of_map fun e he => ?_⟩
  obtain ⟨name, hname, he⟩ := List.mem_filterMap.mp he
  refine List.mem_filterMap.mpr ⟨name, mem_distinct.mpr ?_, he⟩
  exact ((hsub.map nameOf).filter _).subset (mem_distinct.mp hname)

/-- More tools in the fields before a document take no evidence away. -/
theorem exists_subperm_fieldsEvidence {v v' : Value} {es es' : List (Value × Value)}
    (he : v.entries? = some es) (he' : v'.entries? = some es')
    (more : (Value.field es "allowed-tools").Extends (Value.field es' "allowed-tools"))
    (same : Value.field es' "targets" = Value.field es "targets") {found' : List Evidence}
    (h : fieldsEvidence rules file v' = .ok found') :
    ∃ found, fieldsEvidence rules file v = .ok found ∧ found.Subperm found' := by
  -- A list of tools is not null, and so it is looked at.
  have hfields {w : Value} {fs : List (Value × Value)} (hw : w.entries? = some fs)
      (hlist : (Value.field fs "allowed-tools").items? ≠ none) : fieldsEvidence rules file w =
        toolsEvidence rules file (Value.field fs "allowed-tools") >>= fun tools =>
          targetsEvidence? file (Value.field fs "targets") >>= fun targets =>
            .ok (tools ++ targets.toList) := by
    unfold fieldsEvidence
    rw [hw]
    dsimp only
    split
    · rename_i hnull
      exact absurd (by rw [hnull]; rfl) hlist
    · rfl
  obtain ⟨items, items', hi, hi', -⟩ := more.exists_items
  rw [hfields he' (by simp [hi'])] at h
  obtain ⟨tools', htools', h⟩ := Attempt.bind_eq_ok_iff.mp h
  obtain ⟨targets, htargets, h⟩ := Attempt.bind_eq_ok_iff.mp h
  cases h
  obtain ⟨tools, htools, hsub⟩ := exists_subperm_toolsEvidence more htools'
  refine ⟨tools ++ targets.toList, ?_, (List.subperm_append_right _).mpr hsub⟩
  rw [hfields he (by simp [hi]), htools, ← same]
  exact Attempt.bind_eq_ok_iff.mpr ⟨_, rfl, Attempt.bind_eq_ok_iff.mpr ⟨_, htargets, rfl⟩⟩

end Declaration

namespace Hooks

/-- More entries in the list of an event take no handlers away. -/
theorem handlersOfEvent_sublist {v v' : Value} (h : v.Extends v') :
    (handlersOfEvent v).Sublist (handlersOfEvent v') := by
  obtain ⟨items, items', hi, hi', hs⟩ := h.exists_items
  unfold handlersOfEvent
  rw [Value.entries?_eq_none hi, Value.entries?_eq_none hi', hi, hi']
  exact (hs.filterMap _).flatMap _

/-- So it is for the events. -/
theorem handlers_sublist {name list list' : Value} (h : list.Extends list')
    (a b : List (Value × Value)) :
    (handlers (a ++ (name, list) :: b)).Sublist (handlers (a ++ (name, list') :: b)) := by
  unfold handlers
  rw [List.flatMap_append, List.flatMap_append, List.flatMap_cons, List.flatMap_cons]
  exact ((handlersOfEvent_sublist h).map _).append_right _ |>.append_left _

/-- More entries in the list of an event of a configuration take no handlers away: either the events
are the entries of the configuration, or both configurations have the same ones under a key. -/
theorem handlers_events_sublist {v v' name list list' : Value} {a b : List (Value × Value)}
    (he : v.entries? = some (a ++ (name, list) :: b))
    (he' : v'.entries? = some (a ++ (name, list') :: b)) (h : list.Extends list') :
    (handlers (events v)).Sublist (handlers (events v')) := by
  obtain ⟨items, items', hi, hi', -⟩ := h.exists_items
  have hlookup (w : Value) : Value.lookup (a ++ (name, w) :: b) "hooks" =
      (Value.lookup a "hooks").or
        (if name.isText "hooks" then some w else Value.lookup b "hooks") := by
    rw [Value.lookup_append, Value.lookup_cons]
  cases ha : Value.lookup a "hooks" with
  | some inner =>
    rw [events_of_wrapped he ((hlookup list).trans (by rw [ha]; rfl)),
      events_of_wrapped he' ((hlookup list').trans (by rw [ha]; rfl))]
  | none =>
    simp only [ha, Option.none_or] at hlookup
    by_cases hname : name.isText "hooks" = true
    · -- The list of the event stands where the mapping of events would, and is none.
      rw [events_of_wrapped he ((hlookup list).trans (if_pos hname)),
        events_of_wrapped he' ((hlookup list').trans (if_pos hname)), Value.entries?_eq_none hi,
        Value.entries?_eq_none hi']
    · cases hb : Value.lookup b "hooks" with
      | some inner =>
        rw [events_of_wrapped he ((hlookup list).trans ((if_neg hname).trans hb)),
          events_of_wrapped he' ((hlookup list').trans ((if_neg hname).trans hb))]
      | none =>
        rw [events_of_bare he ((hlookup list).trans ((if_neg hname).trans hb)),
          events_of_bare he' ((hlookup list').trans ((if_neg hname).trans hb))]
        exact handlers_sublist h a b

/-- With some of the handlers left out, evidence is found as before, and is part of what it was. -/
theorem exists_sublist_evidence {v v' : Value}
    (hs : (handlers (events v)).Sublist (handlers (events v'))) {es' : List Evidence}
    (h : evidence rules file v' = .ok es') :
    ∃ es, evidence rules file v = .ok es ∧ es.Sublist es' :=
  Attempt.exists_sublist_found hs h

end Hooks

namespace Servers

/-- The servers of a configuration without a mapping for them. -/
theorem servers_of_bare {config : Value} {es : List (Value × Value)}
    (entries : config.entries? = some es) (key : Value.lookup es "mcpServers" = none) :
    servers config = es := by
  unfold servers
  rw [entries]
  dsimp only
  rw [key]

/-- The servers of a configuration with a mapping for them. -/
theorem servers_of_wrapped {config inner : Value} {top : List (Value × Value)}
    (entries : config.entries? = some top) (key : Value.lookup top "mcpServers" = some inner) :
    servers config = inner.entries?.getD [] := by
  unfold servers
  rw [entries]
  dsimp only
  rw [key]

/-- With some of the servers left out, evidence is found as before, and is part of what it was. -/
theorem exists_sublist_evidence {v v' : Value} (hs : (servers v).Sublist (servers v'))
    {es' : List Evidence} (h : evidence rules file v' = .ok es') :
    ∃ es, evidence rules file v = .ok es ∧ es.Sublist es' :=
  Attempt.exists_sublist_found hs h

end Servers

/-- A call that has more to scan takes no evidence away, if it gives any. -/
theorem ScanCall.Extends.exists_subperm {c c' : ScanCall} (h : c.Extends c') {es' : List Evidence}
    (h' : c'.run rules file = .ok es') :
    ∃ es, c.run rules file = .ok es ∧ es.Subperm es' := by
  -- The scans of hooks and servers keep the order, so there the evidence is even a sublist.
  cases h with
  | tools more => exact Declaration.exists_subperm_toolsEvidence more h'
  | fields entries entries' more same =>
    exact Declaration.exists_subperm_fieldsEvidence entries entries' more same h'
  | event entries entries' more =>
    obtain ⟨es, hes, hsub⟩ :=
      Hooks.exists_sublist_evidence (Hooks.handlers_events_sublist entries entries' more) h'
    exact ⟨es, hes, hsub.subperm⟩
  | @wrappedEvent v v' inner inner' name list list' es es' a b entries entries' wrapped wrapped'
      events events' more =>
    have hs : (Hooks.handlers (Hooks.events v)).Sublist (Hooks.handlers (Hooks.events v')) := by
      rw [Hooks.events_of_wrapped entries wrapped, Hooks.events_of_wrapped entries' wrapped',
        events, events']
      exact Hooks.handlers_sublist more a b
    obtain ⟨es, hes, hsub⟩ := Hooks.exists_sublist_evidence hs h'
    exact ⟨es, hes, hsub.subperm⟩
  | @server v v' es es' entries entries' more bare =>
    have hbare : Value.lookup es "mcpServers" = none := by
      simp only [Value.lookup, Option.map_eq_none_iff, List.find?_eq_none] at bare ⊢
      exact fun e he => bare e (more.subset he)
    have hs : (Servers.servers v).Sublist (Servers.servers v') := by
      rw [Servers.servers_of_bare entries hbare, Servers.servers_of_bare entries' bare]
      exact more
    obtain ⟨es, hes, hsub⟩ := Servers.exists_sublist_evidence hs h'
    exact ⟨es, hes, hsub.subperm⟩
  | @wrappedServer v v' inner inner' es es' servers servers' entries entries' wrapped wrapped'
      servers_eq servers_eq' more =>
    have hs : (Servers.servers v).Sublist (Servers.servers v') := by
      rw [Servers.servers_of_wrapped entries wrapped, Servers.servers_of_wrapped entries' wrapped',
        servers_eq, servers_eq']
      exact more
    obtain ⟨es, hes, hsub⟩ := Servers.exists_sublist_evidence hs h'
    exact ⟨es, hes, hsub.subperm⟩

end Extends

/-- Scanners take what they are given. A call whose values are not nested too deeply to be written
gives evidence exactly if these have no integer beyond the limit on digits, and fails for nothing
else; so every call gives evidence for what a JSON text within reach writes, in which there is none.
And one with more tools, more entries in the list of an event or more servers takes no evidence
away, if it gives any. -/
theorem scanners_return_unless_overlong (rules : RuleTables) (file : Text) :
    (∀ c : ScanCall, (∀ v ∈ c.written rules, v.height ≤ callLimit) →
      ((∃ es, c.run rules file = .ok es) ↔ ∀ v ∈ c.written rules, v.isShort = true) ∧
      ∀ f, c.run rules file = .error f → f = .tooManyDigits none) ∧
    (∀ c : ScanCall, (∀ v, c.value? = some v →
        ∃ text, Json.levels text ≤ callLimit ∧ Json.read text = .ok v) →
      ∃ es, c.run rules file = .ok es) ∧
    ∀ c c' : ScanCall, c.Extends c' → ∀ es', c'.run rules file = .ok es' →
      ∃ es, c.run rules file = .ok es ∧ es.Subperm es' := by
  refine ⟨fun c _ => ⟨c.writesIff_run.ok_iff, c.writesIff_run.failsOnly⟩, fun c hc => ?_,
    fun c c' h es' h' => h.exists_subperm h'⟩
  refine c.writesIff_run.ok_iff.mpr fun v hv => Value.isShort_of_isJson ?_
  refine ScanCall.isJson_of_mem_written (fun v hvalue => ?_) v hv
  obtain ⟨text, -, htext⟩ := hc v hvalue
  exact Json.isJson_of_read htext

/-- A call for tools one of which is an empty list gives evidence, as one read from JSON does, and
takes none away from a call for the first of them. -/
theorem scanners_return_unless_overlong_bash :
    (∀ v ∈ (ScanCall.tools (.list [.text "Bash", .list []])).written Bundled.tables,
      v.height ≤ callLimit) ∧
    (∃ es, (ScanCall.tools (.list [.text "Bash", .list []])).run Bundled.tables "SKILL.md" =
      .ok es) ∧
    Json.levels "[\"Bash\"]" ≤ callLimit ∧
    (∃ es, (ScanCall.tools (.list [.text "Bash"])).run Bundled.tables "SKILL.md" = .ok es) ∧
    ∃ es es', (ScanCall.tools (.list [.text "Bash"])).run Bundled.tables "SKILL.md" = .ok es ∧
      (ScanCall.tools (.list [.text "Bash", .list []])).run Bundled.tables "SKILL.md" = .ok es' ∧
      es.Subperm es' := by
  obtain ⟨hexact, hjson, hmore⟩ := scanners_return_unless_overlong Bundled.tables "SKILL.md"
  have hheight : ∀ v ∈ (ScanCall.tools (.list [.text "Bash", .list []])).written Bundled.tables,
      v.height ≤ callLimit := by decide
  have hread : Json.read "[\"Bash\"]" = .ok (.list [.text "Bash"]) := by rfl
  obtain ⟨es', hes'⟩ := (hexact _ hheight).1.mpr (by decide)
  have hextends : (ScanCall.tools (.list [.text "Bash"])).Extends
      (.tools (.list [.text "Bash", .list []])) :=
    .tools ⟨_, _, rfl, rfl, .cons_cons _ (List.nil_sublist _)⟩
  have hlevels : Json.levels "[\"Bash\"]" ≤ callLimit := by decide
  have hfirst := hjson (.tools (.list [.text "Bash"])) fun v hv =>
    ⟨_, hlevels, hread.trans (congrArg Except.ok (Option.some.inj hv))⟩
  obtain ⟨es, hes, hsub⟩ := hmore _ _ hextends _ hes'
  exact ⟨hheight, ⟨es', hes'⟩, hlevels, hfirst, es, es', hes, hes', hsub⟩

/-- An integer of 4301 digits in a list of tools hides the tool before it, also in the fields before
a document. -/
theorem overlong_tool_hides_others :
    (ScanCall.tools (.list [.text "Bash"])).run Bundled.tables "SKILL.md" =
      .ok [⟨.frontmatter, "SKILL.md", none, "allowed-tools: Bash",
        "Skill requires \"Bash\" tool which needs local environment access",
        Template.incompatibleDesktopReviewCowork.impact⟩] ∧
    (ScanCall.tools (.list [.text "Bash", .int (Nat.pow 10 4300)])).run Bundled.tables "SKILL.md" =
      .error (.tooManyDigits none) ∧
    (ScanCall.fields (.map [(.text "allowed-tools",
      .list [.text "Bash", .int (Nat.pow 10 4300)])])).run Bundled.tables "SKILL.md" =
      .error (.tooManyDigits none) :=
  ⟨by decide +kernel, by decide +kernel, by decide +kernel⟩

end SurfaceAudit
