import SurfaceAudit.Json.Reader
import SurfaceAudit.Value.Written
import Mathlib.Data.Nat.Digits.Lemmas

/-!
# The values that JSON texts write

`Json.IsJson` says which values there are: no bytes, days or knots, keys that are texts, and
integers within the limit on digits. What is read is such a value (`Json.isJson_of_read`), and each
such value has a text (`Json.IsJson.exists_shown`), which a value of another format may lack. What a
given text is read as can be told by a test (`Json.read_eq_of_agrees`).
-/

namespace SurfaceAudit

namespace Number

/-- The value of digits from a number on. -/
theorem foldl_digits_lt (ds : List Nat) (n k : Nat) (hn : n < 10 ^ k) (h : ∀ d ∈ ds, d < 10) :
    ds.foldl (fun n d => n * 10 + d) n < 10 ^ (k + ds.length) := by
  induction ds generalizing n k with
  | nil => exact hn
  | cons d r ih =>
    have hd : d < 10 := h d List.mem_cons_self
    have hstep : n * 10 + d < 10 ^ (k + 1) := by rw [pow_succ]; omega
    have hr := ih (n * 10 + d) (k + 1) hstep fun x hx => h x (List.mem_cons_of_mem d hx)
    rw [List.foldl_cons, List.length_cons, show k + (r.length + 1) = k + 1 + r.length by omega]
    exact hr

/-- A number has no more digits than are written for it. -/
theorem valueOf_lt {ds : List Nat} (h : ∀ d ∈ ds, d < 10) {k : Nat} (hk : ds.length ≤ k) :
    valueOf 10 ds < Nat.pow 10 k := by
  have hlt := foldl_digits_lt ds 0 0 (by simp) h
  rw [Nat.zero_add] at hlt
  exact lt_of_lt_of_le hlt (Nat.pow_le_pow_right (by decide) hk)

/-- An integer within the limit on digits can be written. -/
theorem writeInt_of_lt {n : Int} (h : n.natAbs < Nat.pow 10 digitLimit) :
    writeInt n = .ok (Text.ofInt n) := by
  unfold writeInt
  exact if_pos (Bool.or_eq_true_iff.mpr (.inr (decide_eq_true h)))

end Number

namespace Json

/-- The values that JSON texts write. -/
inductive IsJson : Value → Prop where
  /-- Nothing. -/
  | null : IsJson .null
  /-- A truth value. -/
  | bool (b : Bool) : IsJson (.bool b)
  /-- An integer within the limit on digits. -/
  | int {n : Int} (h : n.natAbs < Nat.pow 10 Number.digitLimit) : IsJson (.int n)
  /-- A floating point number. -/
  | real (x : Binary64) : IsJson (.real x)
  /-- A text. -/
  | text (t : Text) : IsJson (.text t)
  /-- A sequence. -/
  | list {items : List Value} (h : ∀ v ∈ items, IsJson v) : IsJson (.list items)
  /-- A mapping from texts. -/
  | map {entries : List (Value × Value)} (keys : ∀ e ∈ entries, ∃ t, e.1 = .text t)
    (values : ∀ e ∈ entries, IsJson e.2) : IsJson (.map entries)

/-- The digits of the integer part of a number are decimal digits. -/
theorem isAsciiDigit_of_mem_whole {t : Text} {p : Point} (h : p ∈ whole t) :
    p.isAsciiDigit = true := by
  unfold whole at h
  split at h
  · rename_i d r
    split at h
    · rename_i hd
      rw [List.mem_singleton.mp h, beq_iff_eq.mp hd]
      decide
    · split at h
      · exact List.all_eq_true.mp List.all_takeWhile p h
      · simp at h
  · simp at h

/-- The value of a decimal digit. -/
theorem digit_lt {p : Point} (h : p.isAsciiDigit = true) : p.val - 48 < 10 := by
  unfold Point.isAsciiDigit Point.between at h
  simp only [Bool.and_eq_true, decide_eq_true_eq] at h
  have h9 : ('9' : Char).toNat = 57 := rfl
  omega

/-- The number that is read at a place is a number of JSON. -/
theorem isJson_of_number {r r' : Rest} {v : Value} (h : number r = .ok (v, r')) : IsJson v := by
  unfold number at h
  generalize (if r.isAt '-' = true then [Point.scalar '-'] else []) = minus at h
  simp only at h
  split at h
  · exact absurd h (by simp)
  · split at h
    · split at h
      · exact absurd h (by simp)
      · -- An integer: its digits are within the limit, and so is its value.
        rename_i hlimit
        simp only [Except.ok.injEq, Prod.mk.injEq] at h
        obtain ⟨rfl, -⟩ := h
        generalize hw : whole _ = w at hlimit ⊢
        have hlt : Number.valueOf 10 (w.map (·.val - 48)) < Nat.pow 10 Number.digitLimit := by
          refine Number.valueOf_lt ?_ (by simpa using hlimit)
          intro d hd
          obtain ⟨p, hp, rfl⟩ := List.mem_map.mp hd
          exact digit_lt (isAsciiDigit_of_mem_whole (hw ▸ hp))
        apply IsJson.int
        split
        · simpa using hlt
        · simpa using hlt
    · split at h
      · simp only [Except.ok.injEq, Prod.mk.injEq] at h
        obtain ⟨rfl, -⟩ := h
        exact .real _
      · exact absurd h (by simp)

/-- The name or number that is read at a place is a value of JSON. -/
theorem isJson_of_plain {r r' : Rest} {v : Value} (h : plain r = .ok (v, r')) : IsJson v := by
  unfold plain at h
  split at h
  · rename_i name w hfind
    simp only [Except.ok.injEq, Prod.mk.injEq] at h
    obtain ⟨rfl, -⟩ := h
    have hmem := List.mem_of_find?_eq_some hfind
    simp only [names, List.mem_cons, Prod.mk.injEq, List.not_mem_nil, or_false] at hmem
    rcases hmem with ⟨-, rfl⟩ | ⟨-, rfl⟩ | ⟨-, rfl⟩ | ⟨-, rfl⟩ | ⟨-, rfl⟩ | ⟨-, rfl⟩
    · exact .null
    · exact .bool true
    · exact .bool false
    · exact .real _
    · exact .real _
    · exact .real _
  · exact isJson_of_number h

/-- Entries of JSON: their keys are texts, and their values are those of JSON. -/
def AreEntries (es : List (Value × Value)) : Prop :=
  (∀ e ∈ es, ∃ t, e.1 = .text t) ∧ ∀ e ∈ es, IsJson e.2

/-- Setting a text key among entries of JSON keeps them entries of JSON. -/
theorem AreEntries.put {es : List (Value × Value)} (h : AreEntries es) (key : Text) {v : Value}
    (hv : IsJson v) : AreEntries (Value.put es (.text key) v) := by
  have hall : ∀ e ∈ Value.put es (.text key) v, (∃ t, e.1 = .text t) ∧ IsJson e.2 := by
    intro e he
    unfold Value.put at he
    split at he
    · obtain ⟨e', he', rfl⟩ := List.mem_map.mp he
      split
      · exact ⟨h.1 e' he', hv⟩
      · exact ⟨h.1 e' he', h.2 e' he'⟩
    · rcases List.mem_append.mp he with he | he
      · exact ⟨h.1 e he, h.2 e he⟩
      · rw [List.mem_singleton.mp he]
        exact ⟨⟨key, rfl⟩, hv⟩
  exact ⟨fun e he => (hall e he).1, fun e he => (hall e he).2⟩

/-- What is read within a bound is a value of JSON, if what is done is. The three readers call each
other with the bound before, so that one induction carries all of them. -/
theorem isJson_of_readers (bound : Nat) :
    (∀ r v r', value bound r = .ok (v, r') → IsJson v) ∧
      (∀ r done v r', (∀ x ∈ done, IsJson x) → elements bound r done = .ok (v, r') → IsJson v) ∧
      ∀ r done v r', AreEntries done → entries bound r done = .ok (v, r') → IsJson v := by
  induction bound with
  | zero =>
    refine ⟨fun r v r' h => ?_, fun r done v r' _ h => ?_, fun r done v r' _ h => ?_⟩
    · rw [value] at h; exact absurd h (by simp)
    · rw [elements] at h; exact absurd h (by simp)
    · rw [entries] at h; exact absurd h (by simp)
  | succ bound ih =>
    obtain ⟨ihValue, ihElements, ihEntries⟩ := ih
    refine ⟨fun r v r' h => ?_, fun r done v r' hdone h => ?_, fun r done v r' hdone h => ?_⟩
    · rw [value] at h
      simp only at h
      split at h
      · cases hs : string (r.drop 1) with
        | error f => rw [hs] at h; exact absurd h (by simp [Except.map])
        | ok tr =>
          rw [hs] at h
          simp only [Except.map, Except.ok.injEq, Prod.mk.injEq] at h
          rw [← h.1]
          exact .text _
      · split at h
        · split at h
          · simp only [Except.ok.injEq, Prod.mk.injEq] at h
            rw [← h.1]
            exact .map (by simp) (by simp)
          · exact ihEntries _ [] _ _ ⟨by simp, by simp⟩ h
        · split at h
          · split at h
            · simp only [Except.ok.injEq, Prod.mk.injEq] at h
              rw [← h.1]
              exact .list (by simp)
            · exact ihElements _ [] _ _ (by simp) h
          · exact isJson_of_plain h
    · rw [elements] at h
      split at h
      · exact absurd h (by simp)
      · rename_i w r₁ hw
        have hw : IsJson w := ihValue _ _ _ hw
        have hall : ∀ x ∈ w :: done, IsJson x := List.forall_mem_cons.mpr ⟨hw, hdone⟩
        simp only at h
        split at h
        · simp only [Except.ok.injEq, Prod.mk.injEq] at h
          rw [← h.1]
          exact .list fun x hx => hall x (List.mem_reverse.mp hx)
        · split at h
          · exact ihElements _ _ _ _ hall h
          · exact absurd h (by simp)
    · rw [entries] at h
      split at h
      · exact absurd h (by simp)
      · split at h
        · exact absurd h (by simp)
        · simp only at h
          split at h
          · exact absurd h (by simp)
          · split at h
            · exact absurd h (by simp)
            · rename_i w r₁ hw
              have hput (key : Text) := hdone.put key (ihValue _ _ _ hw)
              split at h
              · simp only [Except.ok.injEq, Prod.mk.injEq] at h
                rw [← h.1]
                exact .map (hput _).1 (hput _).2
              · split at h
                · exact ihEntries _ _ _ _ (hput _) h
                · exact absurd h (by simp)

/-- What a text writes is a value of JSON. -/
theorem isJson_of_read {t : Text} {v : Value} (h : read t = .ok v) : IsJson v := by
  have hrest : readRest t = .ok v := by
    unfold read at h
    split at h
    · rename_i w hw
      rw [hw]
      cases h
      rfl
    · exact absurd h (by simp)
    · exact absurd h (by simp)
  unfold readRest at hrest
  split at hrest
  · exact absurd hrest (by simp)
  · simp only at hrest
    split at hrest
    · exact absurd hrest (by simp)
    · rename_i w r hw
      split at hrest
      · cases hrest
        exact (isJson_of_readers _).1 _ _ _ hw
      · exact absurd hrest (by simp)

/-- The written forms of values exist if each value has one. -/
theorem exists_quotedAll {items : List Value} (h : ∀ v ∈ items, ∃ t, v.quoted = .ok t) :
    ∃ ts, Value.quotedAll items = .ok ts := by
  induction items with
  | nil => exact ⟨[], rfl⟩
  | cons v r ih =>
    obtain ⟨t, ht⟩ := h v List.mem_cons_self
    obtain ⟨ts, hts⟩ := ih fun w hw => h w (List.mem_cons_of_mem v hw)
    refine ⟨t :: ts, ?_⟩
    rw [Value.quotedAll, ht, hts]
    rfl

/-- The written forms of entries exist if each key and each value has one. -/
theorem exists_quotedEntries {es : List (Value × Value)} (hk : ∀ e ∈ es, ∃ t, e.1 = .text t)
    (hv : ∀ e ∈ es, ∃ t, e.2.quoted = .ok t) : ∃ ts, Value.quotedEntries es = .ok ts := by
  induction es with
  | nil => exact ⟨[], rfl⟩
  | cons e r ih =>
    obtain ⟨k, v⟩ := e
    obtain ⟨s, rfl⟩ := hk (k, v) List.mem_cons_self
    obtain ⟨t, ht⟩ := hv _ List.mem_cons_self
    obtain ⟨ts, hts⟩ := ih (fun e he => hk e (List.mem_cons_of_mem _ he))
      fun e he => hv e (List.mem_cons_of_mem _ he)
    refine ⟨(s.quoted ++ ": " ++ t) :: ts, ?_⟩
    rw [Value.quotedEntries, Value.quoted, ht, hts]
    rfl

/-- A value of JSON has a written form inside a container. -/
theorem IsJson.exists_quoted {v : Value} (h : IsJson v) : ∃ t, v.quoted = .ok t := by
  -- Only integers could be too long to be written, and those of JSON are not.
  induction h with
  | null => exact ⟨_, rfl⟩
  | bool b => exact ⟨_, rfl⟩
  | int hn => exact ⟨_, Number.writeInt_of_lt hn⟩
  | real x => exact ⟨_, rfl⟩
  | text t => exact ⟨_, rfl⟩
  | list _ ih =>
    obtain ⟨ts, hts⟩ := exists_quotedAll ih
    refine ⟨Value.bracketed "[" "]" ts, ?_⟩
    rw [Value.quoted, hts]
    rfl
  | map hk _ ih =>
    obtain ⟨ts, hts⟩ := exists_quotedEntries hk ih
    refine ⟨Value.bracketed "\x7b" "\x7d" ts, ?_⟩
    rw [Value.quoted, hts]
    rfl

/-- A value of JSON has a text. -/
theorem IsJson.exists_shown {v : Value} (h : IsJson v) : ∃ t, v.shown = .ok t := by
  cases h with
  | text t => exact ⟨t, rfl⟩
  | null => exact ⟨_, rfl⟩
  | bool b => exact ⟨_, rfl⟩
  | real x => exact ⟨_, rfl⟩
  | int hn => exact (IsJson.int hn).exists_quoted
  | list hs => exact (IsJson.list hs).exists_quoted
  | map hk hv => exact (IsJson.map hk hv).exists_quoted

/-- The elements of a sequence of JSON are values of JSON. -/
theorem IsJson.of_mem_items {v : Value} (h : IsJson v) {items : List Value}
    (hi : v.items? = some items) : ∀ w ∈ items, IsJson w := by
  cases h with
  | list hs =>
    cases hi
    exact hs
  | null => cases hi
  | bool b => cases hi
  | real x => cases hi
  | text t => cases hi
  | int hn => cases hi
  | map hk hv => cases hi

/-- The value of a key in a mapping of JSON is a value of JSON, since nothing is one. -/
theorem IsJson.field {v : Value} (h : IsJson v) {es : List (Value × Value)}
    (he : v.entries? = some es) (key : Text) : IsJson (Value.field es key) := by
  cases h with
  | map hk hv =>
    cases he
    unfold Value.field Value.lookup
    cases hf : es.find? fun e => e.1.isText key with
    | none => exact .null
    | some e => exact hv e (List.mem_of_find?_eq_some hf)
  | null => cases he
  | bool b => cases he
  | real x => cases he
  | text t => cases he
  | int hn => cases he
  | list hs => cases he

end Json

namespace Value

mutual

/-- Two values are seen to be the same: both are nothing, or texts, sequences or mappings. -/
def agrees : Value → Value → Bool
  | .null, .null => true
  | .text s, .text t => s == t
  | .list vs, .list ws => agreesAll vs ws
  | .map es, .map fs => agreesEntries es fs
  | _, _ => false

/-- `agrees` for each value. -/
def agreesAll : List Value → List Value → Bool
  | [], [] => true
  | v :: vs, w :: ws => agrees v w && agreesAll vs ws
  | _, _ => false

/-- `agrees` for each key and value. -/
def agreesEntries : List (Value × Value) → List (Value × Value) → Bool
  | [], [] => true
  | (k, v) :: es, (l, w) :: fs => agrees k l && agrees v w && agreesEntries es fs
  | _, _ => false

end

mutual

/-- Values that agree are the same. -/
theorem eq_of_agrees : ∀ {v w : Value}, v.agrees w = true → v = w
  | .null, .null, _ => rfl
  | .text s, .text t, h => by
    rw [agrees, beq_iff_eq] at h
    rw [h]
  | .list vs, .list ws, h => by
    rw [agrees] at h
    rw [eq_of_agreesAll h]
  | .map es, .map fs, h => by
    rw [agrees] at h
    rw [eq_of_agreesEntries h]

/-- `eq_of_agrees` for each value. -/
theorem eq_of_agreesAll : ∀ {vs ws : List Value}, agreesAll vs ws = true → vs = ws
  | [], [], _ => rfl
  | v :: vs, w :: ws, h => by
    rw [agreesAll, Bool.and_eq_true] at h
    rw [eq_of_agrees h.1, eq_of_agreesAll h.2]

/-- `eq_of_agrees` for each key and value. -/
theorem eq_of_agreesEntries : ∀ {es fs : List (Value × Value)},
    agreesEntries es fs = true → es = fs
  | [], [], _ => rfl
  | (k, v) :: es, (l, w) :: fs, h => by
    rw [agreesEntries, Bool.and_eq_true, Bool.and_eq_true] at h
    rw [eq_of_agrees h.1.1, eq_of_agrees h.1.2, eq_of_agreesEntries h.2]

end

end Value

/-- A text is read as a value if what is read agrees with it. -/
theorem Json.read_eq_of_agrees {text : Text} {v : Value}
    (h : (match Json.read text with | .ok w => w.agrees v | .error _ => false) = true) :
    Json.read text = .ok v := by
  split at h
  · rename_i w hw
    rw [hw, Value.eq_of_agrees h]
  · cases h

end SurfaceAudit
