import Mathlib.Data.List.Forall2
import SurfaceAudit.Proofs.Walk
import SurfaceAudit.Text.Case

/-!
# Texts in small letters

A text of small ASCII letters and dots, in which there is no `i` and no `k`, is the text in small
letters of exactly those texts that have the same letters, small or capital (`Text.lower_eq_iff`).
The two letters are left out since a letter that is not ASCII becomes them: the sign for kelvins,
and the capital `I` with a dot.
-/

namespace SurfaceAudit

namespace Point

/-- The code point is another one, or the capital letter for it. -/
def IsCaseOf (p q : Point) : Prop := p = q ∨ p.between 'A' 'Z' = true ∧ q.val = p.val + 32

instance (p q : Point) : Decidable (IsCaseOf p q) := inferInstanceAs (Decidable (_ ∨ _))

/-- The code point is a dot, or a small letter that only ASCII letters become. -/
def isOwnSmall (p : Point) : Bool :=
  p.val == 46 || 97 ≤ p.val && p.val ≤ 122 && p.val != 105 && p.val != 107

/-- A letter that is not ASCII becomes one that is not, unless it is the sign for kelvins. -/
theorem distance_of_distanceToSmall {n : Nat} {d : Int} (hn : 128 ≤ n)
    (h : distanceToSmall n = some d) : 128 ≤ n + d ∨ n + d = 107 := by
  have hruns : ∀ run ∈ Alphabet.smallLetters.toList, run.2.1 < 128 ∨
      128 ≤ (run.1 : Int) + run.2.2.2 ∨ run.1 = run.2.1 ∧ (run.1 : Int) + run.2.2.2 = 107 := by
    decide +kernel
  obtain ⟨⟨first, last, step, d⟩, hrun, rfl⟩ := Option.map_eq_some_iff.mp h
  have hmem := Array.mem_toList_iff.mpr (Array.mem_of_find?_eq_some hrun)
  have hin := Array.find?_some hrun
  simp only [Bool.and_eq_true, decide_eq_true_eq] at hin
  have hcases := hruns _ hmem
  dsimp only at hcases ⊢
  omega

/-- The code point with a number has it. -/
theorem val_of_ofNat? {n : Nat} {p : Point} (h : ofNat? n = some p) : p.val = n := by
  unfold ofNat? at h
  by_cases hv : n.isValidChar
  · rw [dif_pos hv] at h
    cases h
    rfl
  · rw [dif_neg hv] at h
    by_cases hs : 0xD800 ≤ n ∧ n - 0xD800 < 0x800
    · rw [dif_pos hs] at h
      cases h
      exact Nat.add_sub_of_le hs.1
    · rw [dif_neg hs] at h
      cases h

/-- The small letter of a code point has its number, if there is a code point with it. -/
theorem val_small (p : Point) : p.small.val = p.smallVal ∨ p.small = p := by
  unfold small
  cases h : ofNat? p.smallVal with
  | none => exact .inr rfl
  | some q => exact .inl (val_of_ofNat? h)

/-- A small letter that is ASCII has its number. -/
theorem val_small_of_lt {p : Point} (h : p.smallVal < 128) : p.small.val = p.smallVal := by
  have hvalid : p.smallVal.isValidChar := .inl (by omega)
  unfold small
  rw [ofNat?, dif_pos hvalid]
  rfl

/-- A code point with a small letter that only ASCII letters become is between these numbers. -/
theorem isOwnSmall_iff {p : Point} : p.isOwnSmall = true ↔
    p.val = 46 ∨ 97 ≤ p.val ∧ p.val ≤ 122 ∧ p.val ≠ 105 ∧ p.val ≠ 107 := by
  simp [isOwnSmall, and_assoc]

/-- A code point that is not ASCII becomes no letter that only ASCII letters become. -/
theorem not_isOwnSmall_small {p : Point} (hp : p.isAscii = false) (hdot : p.val ≠ 0x130) :
    p.small.isOwnSmall = false := by
  have hlarge : 128 ≤ p.val := by simpa [isAscii] using hp
  have hsmall : 128 ≤ p.small.val ∨ p.small.val = 107 := by
    rcases p.val_small with h | h
    · rw [h, smallVal, if_neg (by simp [hp]), if_neg (by simpa using hdot)]
      cases hd : distanceToSmall p.val with
      | none => exact .inl hlarge
      | some d =>
        have hcases := distance_of_distanceToSmall hlarge hd
        dsimp only
        omega
    · rw [h]
      exact .inl hlarge
  rw [← Bool.not_eq_true, isOwnSmall_iff]
  omega

/-- The code points with a small letter that only ASCII letters become are the letter itself and its
capital. -/
theorem small_eq_iff {p q : Point} (hdot : p.val ≠ 0x130) (hq : q.isOwnSmall = true) :
    p.small = q ↔ p.IsCaseOf q := by
  have hrange := isOwnSmall_iff.mp hq
  have hcapital : p.between 'A' 'Z' = true ↔ 65 ≤ p.val ∧ p.val ≤ 90 := by simp [between]
  unfold IsCaseOf
  rw [hcapital]
  by_cases hp : p.isAscii = true
  · have hlt : p.val < 128 := by simpa [isAscii] using hp
    by_cases hAZ : p.between 'A' 'Z' = true
    · -- A capital letter is not its small letter.
      have hsmall : p.smallVal = p.val + 32 := by rw [smallVal, if_pos hp, if_pos hAZ]
      have hbounds := hcapital.mp hAZ
      have hval : p.small.val = p.val + 32 := by rw [val_small_of_lt (by omega), hsmall]
      constructor
      · rintro rfl
        exact .inr ⟨hbounds, hval⟩
      · rintro (rfl | ⟨-, h⟩)
        · omega
        · exact val_injective (hval.trans h.symm)
    · have hsmall : p.smallVal = p.val := by rw [smallVal, if_pos hp, if_neg hAZ]
      have hself : p.small = p := val_injective (by rw [val_small_of_lt (by omega), hsmall])
      rw [hself]
      exact ⟨.inl, fun h => h.resolve_right fun h => hAZ (hcapital.mpr h.1)⟩
  · have hlarge : 128 ≤ p.val := by simpa [isAscii] using hp
    constructor
    · rintro rfl
      rw [not_isOwnSmall_small (eq_false_of_ne_true hp) hdot] at hq
      cases hq
    · rintro (rfl | ⟨h, -⟩) <;> omega

/-- Only ASCII letters are such a letter or its capital. -/
theorem IsCaseOf.val_lt {p q : Point} (h : p.IsCaseOf q) (hq : q.isOwnSmall = true) :
    p.val < 128 := by
  have hrange := isOwnSmall_iff.mp hq
  rcases h with rfl | ⟨h, -⟩
  · omega
  · have hbounds : 65 ≤ p.val ∧ p.val ≤ 90 := by simpa [between] using h
    omega

end Point

namespace Text

/-- What is done stands before the rest. -/
theorem lowerFrom_eq (t : Text) (cased : Bool) (done : Text) :
    lowerFrom t cased done = done.reverse ++ lowerFrom t cased [] := by
  induction t generalizing cased done with
  | nil => simp [lowerFrom]
  | cons c r ih =>
    simp only [lowerFrom]
    split
    · rw [ih, ih _ [_]]
      simp
    · split
      · rw [ih, ih _ (_ :: _ :: [])]
        simp
      · rw [ih, ih _ [_]]
        simp

/-- The texts that have letters in small or capital are those that become the small letters. -/
theorem lower_eq_iff {s : Text} (hs : ∀ q ∈ s, q.isOwnSmall = true) (t : Text) :
    t.lower = s ↔ List.Forall₂ Point.IsCaseOf t s := by
  have hfrom (t : Text) (cased : Bool) :
      lowerFrom t cased [] = s ↔ List.Forall₂ Point.IsCaseOf t s := by
    induction t generalizing cased s with
    | nil => simp [lowerFrom, eq_comm]
    | cons c r ih =>
      -- A code point that becomes others than its small letter becomes none of these letters.
      have hnone {first : Point} {more : Text} (hc : 128 ≤ c.val)
          (hfirst : first.isOwnSmall = false) :
          first :: more = s ↔ List.Forall₂ Point.IsCaseOf (c :: r) s := by
        constructor
        · rintro rfl
          rw [hs first List.mem_cons_self] at hfirst
          cases hfirst
        · rintro (_ | ⟨hq, -⟩)
          exact absurd (hq.val_lt (hs _ List.mem_cons_self)) (Nat.not_lt.mpr hc)
      simp only [lowerFrom]
      split
      · rename_i hsigma
        have hc : c.val = 0x3A3 := by simpa using hsigma
        have hsmall (final : Bool) :
            (Point.scalar (if final then 'ς' else 'σ')).isOwnSmall = false := by
          cases final <;> decide
        rw [lowerFrom_eq]
        exact hnone (by omega) (hsmall _)
      rename_i hsigma
      split
      · rename_i hdot
        have hc : c.val = 0x130 := by simpa using hdot
        rw [lowerFrom_eq]
        exact hnone (by omega) (by decide)
      · rename_i hdot
        rw [lowerFrom_eq]
        cases s with
        | nil => simp
        | cons q s =>
          obtain ⟨hq, hs⟩ := List.forall_mem_cons.mp hs
          rw [List.forall₂_cons, ← ih hs, ← Point.small_eq_iff (by simpa using hdot) hq]
          exact List.cons_eq_cons
  exact hfrom t false

end Text

end SurfaceAudit
