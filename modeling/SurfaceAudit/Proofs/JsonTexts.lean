import SurfaceAudit.Json.Writer
import SurfaceAudit.Proofs.Accounts
import SurfaceAudit.Proofs.JsonValues
import Mathlib.Data.List.TakeWhile

/-!
# The JSON texts of values

No piece of the written form of a JSON value is a fault (`Json.IsJson.good_pieces`), so each such
value has a JSON text (`Json.IsJson.exists_write`). The report on a plugin is one, if the mode is a
text and the numbers in the result are within the limit on digits (`Report.isJson_resultDocument`).
-/

namespace SurfaceAudit

namespace Json

/-- No piece of a written form is a fault. -/
def AreGood (ps : List Piece) : Prop := ∀ p ∈ ps, p.isOk = true

variable {ps qs : List Piece} {v : Value}

/-- Pieces in a row are good if all of them are. -/
@[simp] theorem areGood_append : AreGood (ps ++ qs) ↔ AreGood ps ∧ AreGood qs := by
  unfold AreGood
  rw [List.forall_mem_append]

/-- Pieces are good if the first and all others are. -/
@[simp] theorem areGood_cons {p : Piece} : AreGood (p :: ps) ↔ p.isOk = true ∧ AreGood ps := by
  unfold AreGood
  rw [List.forall_mem_cons]

/-- Pieces are good if there are none. -/
@[simp] theorem areGood_nil : AreGood [] := fun _ h => absurd h List.not_mem_nil

/-- A piece that is there is good. -/
@[simp] theorem isOk_ok (t : Text) : (.ok t : Piece).isOk = true := rfl

/-- Further elements are written without a fault if each of them is. -/
theorem areGood_morePieces {items : List Value}
    (h : ∀ v ∈ items, ∀ level, AreGood (pieces level v)) (level : Nat) :
    AreGood (morePieces level items) := by
  induction items with
  | nil => simp [morePieces]
  | cons v r ih =>
    have hr := ih fun w hw => h w (List.mem_cons_of_mem v hw)
    simp [morePieces, h v List.mem_cons_self level, hr]

/-- A list is written without a fault if each element is. -/
theorem areGood_listPieces {items : List Value}
    (h : ∀ v ∈ items, ∀ level, AreGood (pieces level v)) (level : Nat) :
    AreGood (listPieces level items) := by
  cases items with
  | nil => simp [listPieces]
  | cons v r =>
    have hr := areGood_morePieces fun w hw => h w (List.mem_cons_of_mem v hw)
    simp [listPieces, h v List.mem_cons_self, hr]

/-- Entries with texts as keys are written without a fault if each value is. -/
theorem areGood_entryPieces {entries : List (Value × Value)}
    (hkeys : ∀ e ∈ entries, ∃ t, e.1 = .text t)
    (h : ∀ e ∈ entries, ∀ level, AreGood (pieces level e.2)) (level : Nat) (first : Bool) :
    AreGood (entryPieces level first entries) := by
  induction entries generalizing first with
  | nil => simp [entryPieces]
  | cons e r ih =>
    obtain ⟨k, v⟩ := e
    obtain ⟨t, rfl⟩ := hkeys (k, v) List.mem_cons_self
    have hv := h _ List.mem_cons_self level
    have hr := ih (fun e he => hkeys e (List.mem_cons_of_mem _ he))
      (fun e he => h e (List.mem_cons_of_mem _ he)) false
    cases first <;> simp [entryPieces, key, hv, hr]

/-- A value of JSON is written without a fault. -/
theorem IsJson.good_pieces (h : IsJson v) (level : Nat) : AreGood (pieces level v) := by
  induction h generalizing level with
  | null => simp [pieces]
  | bool b => simp [pieces]
  | int hn => simp [pieces, Number.writeInt_of_lt hn]
  | real x => simp [pieces]
  | text t => simp [pieces]
  | list _ ih =>
    rw [pieces]
    exact areGood_listPieces ih level
  | @map entries hkeys _ ih =>
    cases entries with
    | nil => simp [pieces]
    | cons e r =>
      have hentries := areGood_entryPieces hkeys ih (level + 1) true
      simp [pieces, hentries]

/-- A value of JSON has a JSON text. -/
theorem IsJson.exists_write (h : IsJson v) : ∃ t, write v = .ok t := by
  -- Since no piece is a fault, the draft takes all of them, and nothing is left for a fault.
  have hgood : (pieces 0 v).takeWhile (·.isOk) = pieces 0 v :=
    List.takeWhile_eq_self_iff.mpr (h.good_pieces 0)
  have hdraft : (draft v).2 = none := by
    unfold draft
    dsimp only
    rw [hgood, List.drop_length]
    rfl
  unfold write
  generalize draft v = drafted at hdraft ⊢
  obtain ⟨t, fault⟩ := drafted
  cases hdraft
  exact ⟨t, rfl⟩

/-- An entry of a mapping in JSON: its key is a text, and its value one of JSON. -/
def IsField (e : Value × Value) : Prop := (∃ t, e.1 = .text t) ∧ IsJson e.2

/-- A mapping is a value of JSON if its entries are. -/
theorem isJson_map {entries : List (Value × Value)} (h : ∀ e ∈ entries, IsField e) :
    IsJson (.map entries) :=
  .map (fun e he => (h e he).1) fun e he => (h e he).2

/-- A list is a value of JSON if its elements are. -/
theorem isJson_list_map {α : Type} {f : α → Value} {xs : List α} (h : ∀ x ∈ xs, IsJson (f x)) :
    IsJson (.list (xs.map f)) := by
  refine .list fun v hv => ?_
  obtain ⟨x, hx, rfl⟩ := List.mem_map.mp hv
  exact h x hx

/-- An entry under a text is one of JSON exactly if its value is. -/
@[simp] theorem isField_text {t : Text} : IsField (.text t, v) ↔ IsJson v :=
  and_iff_right ⟨t, rfl⟩

/-- A text is a value of JSON. -/
@[simp] theorem isJson_text (t : Text) : IsJson (.text t) := .text t

/-- A truth value is a value of JSON. -/
@[simp] theorem isJson_bool (b : Bool) : IsJson (.bool b) := .bool b

/-- The missing value is a value of JSON. -/
@[simp] theorem isJson_null : IsJson .null := .null

end Json

open Json

/-- The numbers in a result are within the limit on digits. -/
structure Result.IsWritable (r : Result) : Prop where
  /-- The lines of the evidence. -/
  lines : ∀ e ∈ r.evidence, ∀ n ∈ e.line, n.natAbs < Nat.pow 10 Number.digitLimit
  /-- The counts of files. -/
  counts : ∀ n ∈ [r.summary.total, r.summary.skills, r.summary.scripts, r.summary.hooks,
    r.summary.servers], n.natAbs < Nat.pow 10 Number.digitLimit

/-- A list of texts is a value of JSON. -/
@[simp] theorem Result.isJson_texts (ts : List Text) : IsJson (texts ts) :=
  isJson_list_map fun t _ => .text t

/-- So is an impact. -/
@[simp] theorem Impact.isJson_toValue (i : Impact) : IsJson i.toValue :=
  isJson_map (by simp [Target.all])

/-- Evidence is a value of JSON if its line can be written. -/
theorem Evidence.isJson_toValue {e : Evidence}
    (h : ∀ n ∈ e.line, n.natAbs < Nat.pow 10 Number.digitLimit) : IsJson e.toValue := by
  refine isJson_map ?_
  cases hl : e.line with
  | none => simp
  | some n =>
    have hn : IsJson (.int n) := .int (h n hl)
    simp [hn]

variable {r : Result}

/-- Counts of files are a value of JSON if they can be written. -/
theorem Result.IsWritable.isJson_summary (h : r.IsWritable) : IsJson r.summary.toValue := by
  have hint {n : Int} (hn : n ∈ [r.summary.total, r.summary.skills, r.summary.scripts,
      r.summary.hooks, r.summary.servers]) : IsJson (.int n) := .int (h.counts n hn)
  exact isJson_map (by simp [hint])

/-- A result is a value of JSON if its numbers can be written. -/
theorem Result.IsWritable.isJson_toValue (h : r.IsWritable) : IsJson r.toValue := by
  have hevidence : IsJson (.list (r.evidence.map (·.toValue))) :=
    isJson_list_map fun e he => Evidence.isJson_toValue (h.lines e he)
  refine isJson_map ?_
  cases r.version <;> cases r.declared <;> cases r.errors <;>
    simp [hevidence, h.isJson_summary]

namespace Report

variable {c : Config} {time path : Text} {g : GateReport}

/-- What was looked at is a value of JSON if the mode is a text. -/
theorem isJson_metadata {mode : Text} (h : c.mode = .text mode) (time path : Text) :
    IsJson (metadata c time path) := by
  refine isJson_map ?_
  cases path <;> simp [h]

/-- What the gate says is a value of JSON if its threshold can be one. -/
theorem GateReport.isJson_toValue {threshold? : Option Verdict}
    (h : g.failOn = Config.thresholdValue threshold?) : IsJson g.toValue := by
  have hon : IsJson g.failOn := by
    rw [h]
    cases threshold? <;> simp [Config.thresholdValue]
  have htargets : IsJson (.list (g.targets.map fun t => .text t.name)) :=
    isJson_list_map fun t _ => .text t.name
  unfold toValue
  -- What is made of each failure is a mapping of two texts.
  generalize hfs : g.failures.map _ = failures
  have hfailures : IsJson (.list failures) := by
    rw [← hfs]
    exact isJson_list_map fun f _ => isJson_map (by simp)
  exact isJson_map (by simp [hon, htargets, hfailures])

/-- The threshold that is reported is that of the gate. -/
theorem failOn_of_gate (h : gate c r = .ok g) : g.failOn = c.gate.failOn := by
  obtain ⟨fs, -, h⟩ := Attempt.bind_eq_ok_iff.mp h
  obtain ⟨ts, -, h⟩ := Attempt.bind_eq_ok_iff.mp h
  cases h
  rfl

/-- The report on a result is a value of JSON if the mode is a text, the threshold can be one, and
the numbers in the result can be written. -/
theorem isJson_resultDocument {mode : Text} {threshold? : Option Verdict}
    (hmode : c.mode = .text mode) (hon : c.gate.failOn = Config.thresholdValue threshold?)
    (hr : r.IsWritable) (hg : gate c r = .ok g) (time path : Text) :
    IsJson (resultDocument c time path r g) := by
  have hgate := GateReport.isJson_toValue ((failOn_of_gate hg).trans hon)
  exact isJson_map (by simp [isJson_metadata hmode, hr.isJson_toValue, hgate])

end Report

end SurfaceAudit
