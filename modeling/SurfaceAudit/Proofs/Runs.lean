import SurfaceAudit.Proofs.Chaining
import SurfaceAudit.Script.Line

/-!
# Runs of code points

A run of a class of code points goes up to where the text is past the class (`Text.IsPast`). Each
reader of a line takes a word or a run away and leaves the rest, and its lemma says exactly when it
reads what (`Script.after?_eq_some_iff`, `Script.run?_eq_some_iff`,
`Script.afterBlanks?_eq_some_iff`). What is trimmed away at the edges of a line is blank
(`Text.exists_strip`), and in front of it stays what ends with no blank (`Text.strip_append`).
-/

namespace SurfaceAudit

namespace Text

/-- The text is past a class of code points: it does not go on with one of them. -/
def IsPast (f : Point → Bool) (t : Text) : Prop := ∀ p ∈ t.head?, f p = false

/-- All code points of the text are blanks; there may be none. -/
def IsBlank (t : Text) : Prop := ∀ p ∈ t, p.isBlank = true

/-- At least one blank, and nothing else. -/
structure IsGap (t : Text) : Prop where
  /-- There is a blank. -/
  ne_nil : t ≠ []
  /-- There is nothing else. -/
  isBlank : t.IsBlank

/-- Strings spell different texts. -/
theorem ofString_injective : Function.Injective ofString := by
  have hscalar : Function.Injective Point.scalar := fun _ _ h => Point.scalar.inj h
  exact fun s t h => String.toList_injective (List.map_injective_iff.mpr hscalar h)

section Past

variable {f g : Point → Bool} {p : Point} {s t : Text}

/-- The end of the text is past every class. -/
@[simp] theorem isPast_nil : IsPast f [] := by simp [IsPast]

/-- A text is past a class exactly if its first code point is not in it. -/
@[simp] theorem isPast_cons : IsPast f (p :: t) ↔ f p = false := by simp [IsPast]

/-- Whether a text is past a class is told by its first code point. -/
theorem isPast_append (hs : s ≠ []) : IsPast f (s ++ t) ↔ IsPast f s := by
  cases s with
  | nil => exact absurd rfl hs
  | cons p s => rfl

/-- Two texts in a row are past a class if both are. -/
theorem IsPast.append (hs : IsPast f s) (ht : IsPast f t) : IsPast f (s ++ t) := by
  cases s with
  | nil => exact ht
  | cons p s => exact hs

/-- The beginning of a text that is past a class is past it, too. -/
theorem IsPast.of_isPrefix (ht : IsPast f t) (hst : s <+: t) : IsPast f s := by
  cases s with
  | nil => exact isPast_nil
  | cons p s =>
    obtain ⟨r, rfl⟩ := hst
    exact ht

/-- A text that is past a class is past a smaller one. -/
theorem IsPast.imp (ht : IsPast g t) (hfg : ∀ p, g p = false → f p = false) : IsPast f t :=
  fun p hp => hfg p (ht p hp)

/-- What is left when a class is dropped is past the class. -/
theorem isPast_dropWhile (f : Point → Bool) (t : Text) : IsPast f (t.dropWhile f) := by
  intro p hp
  have hhead := List.head?_dropWhile_not f t
  have hp : (t.dropWhile f).head? = some p := hp
  rwa [hp] at hhead

/-- Nothing of a class is at the beginning of a text that is past it. -/
theorem IsPast.takeWhile_eq (ht : IsPast f t) : t.takeWhile f = [] := by
  cases t with
  | nil => rfl
  | cons p t => rw [List.takeWhile_cons_of_neg (by simpa using ht)]

/-- A text that is past a class stays as it is when the class is dropped. -/
theorem IsPast.dropWhile_eq (ht : IsPast f t) : t.dropWhile f = t := by
  cases t with
  | nil => rfl
  | cons p t => rw [List.dropWhile_cons_of_neg (by simpa using ht)]

/-- A run of a class, and then something past it: the run is what is taken. -/
theorem takeWhile_run (hs : ∀ p ∈ s, f p = true) (ht : IsPast f t) : (s ++ t).takeWhile f = s := by
  rw [List.takeWhile_append_of_pos hs, ht.takeWhile_eq, List.append_nil]

/-- A run of a class, and then something past it: what follows is left. -/
theorem dropWhile_run (hs : ∀ p ∈ s, f p = true) (ht : IsPast f t) : (s ++ t).dropWhile f = t := by
  rw [List.dropWhile_append_of_pos hs, ht.dropWhile_eq]

/-- What stands before the first code point of a class, that code point and the rest are
determined. -/
theorem append_cons_unique {a b r u : Text} {q : Point} (ha : ∀ x ∈ a, f x = false)
    (hb : ∀ x ∈ b, f x = false) (hp : f p = true) (hq : f q = true)
    (h : a ++ p :: r = b ++ q :: u) : a = b ∧ p = q ∧ r = u := by
  have htake {s t : Text} {x : Point} (hs : ∀ x ∈ s, f x = false) (hx : f x = true) :
      (s ++ x :: t).takeWhile (!f ·) = s :=
    takeWhile_run (fun y hy => by simp [hs y hy]) (isPast_cons.mpr (by simp [hx]))
  have hab : a = b := by rw [← htake (t := r) ha hp, h, htake hb hq]
  subst hab
  obtain ⟨hpq, hru⟩ := List.cons.inj (List.append_cancel_left h)
  exact ⟨rfl, hpq, hru⟩

/-- The end of a text ends as the text does. -/
theorem forall_getLast?_of_suffix {P : Point → Prop} (hst : s <:+ t)
    (h : ∀ p ∈ t.getLast?, P p) : ∀ p ∈ s.getLast?, P p := by
  obtain ⟨r, rfl⟩ := hst
  intro p hp
  have hne : s ≠ [] := by
    rintro rfl
    cases hp
  refine h p ?_
  rwa [List.getLast?_append_of_ne_nil r hne]

/-- Blanks are past the words. -/
theorem IsBlank.isPast_isWord (ht : t.IsBlank) : IsPast Point.isWord t :=
  fun p hp => Point.isWord_of_isBlank (ht p (List.mem_of_mem_head? hp))

end Past

section Trim

variable {a s t : Text}

/-- What ends with no blank stays, whatever blanks are trimmed after it. -/
theorem trimRight_append (hs : ∀ p ∈ s.getLast?, p.isBlank = false) :
    (s ++ t).trimRight Point.isBlank = s ++ t.trimRight Point.isBlank := by
  have hpast : IsPast Point.isBlank s.reverse := by
    intro p hp
    rw [List.head?_reverse] at hp
    exact hs p hp
  unfold trimRight
  rw [List.reverse_append, List.dropWhile_append, hpast.dropWhile_eq]
  cases t.reverse.dropWhile Point.isBlank with
  | nil => simp
  | cons p r => simp

/-- What is left is a beginning, and the rest of the text is blank. -/
theorem exists_trimRight (t : Text) : ∃ b, t = t.trimRight Point.isBlank ++ b ∧ b.IsBlank := by
  refine ⟨(t.reverse.takeWhile Point.isBlank).reverse, ?_, fun p hp => ?_⟩
  · rw [trimRight, ← List.reverse_append, List.takeWhile_append_dropWhile, List.reverse_reverse]
  · exact List.mem_takeWhile_imp (List.mem_reverse.mp hp)

/-- A text without the blanks at its end is a beginning of it. -/
theorem trimRight_isPrefix (t : Text) : t.trimRight Point.isBlank <+: t := by
  obtain ⟨b, hb, -⟩ := exists_trimRight t
  exact ⟨b, hb.symm⟩

/-- Of blanks alone, nothing is left. -/
theorem IsBlank.trimRight_eq (ht : t.IsBlank) : t.trimRight Point.isBlank = [] := by
  unfold trimRight
  rw [List.dropWhile_eq_nil_iff.mpr fun p hp => ht p (List.mem_reverse.mp hp)]
  rfl

/-- Blanks are trimmed before a text that begins and ends with none, and after what follows it. -/
theorem strip_append (ha : a.IsBlank) (hne : s ≠ []) (hs : IsPast Point.isBlank s)
    (hlast : ∀ p ∈ s.getLast?, p.isBlank = false) :
    (a ++ (s ++ t)).strip = s ++ t.trimRight Point.isBlank := by
  have hpast : IsPast Point.isBlank (s ++ t) := (isPast_append hne).mpr hs
  rw [strip, trim, trimLeft, dropWhile_run ha hpast, trimRight_append hlast]

/-- Around a text without the blanks at its edges are blanks. -/
theorem exists_strip (t : Text) : ∃ a b, t = a ++ (t.strip ++ b) ∧ a.IsBlank ∧ b.IsBlank := by
  obtain ⟨b, hb, hblank⟩ := exists_trimRight (t.trimLeft Point.isBlank)
  refine ⟨t.takeWhile Point.isBlank, b, ?_, fun p hp => List.mem_takeWhile_imp hp, hblank⟩
  calc t = t.takeWhile Point.isBlank ++ t.trimLeft Point.isBlank :=
        List.takeWhile_append_dropWhile.symm
    _ = t.takeWhile Point.isBlank ++ (t.strip ++ b) := by rw [strip, trim, ← hb]

/-- What is trimmed is a part. -/
theorem infix_strip (t : Text) : t.strip <:+: t := by
  obtain ⟨a, b, ht, -, -⟩ := exists_strip t
  exact ⟨a, b, by rw [List.append_assoc, ← ht]⟩

end Trim

end Text

namespace Script

open Text

variable {f : Point → Bool} {word s r t : Text}

/-- A word is read exactly if it is in front. -/
theorem after?_eq_some_iff : after? word t = some r ↔ t = word ++ r := by
  unfold after?
  rw [Option.ite_none_right_eq_some, List.isPrefixOf_iff_prefix, Option.some.injEq]
  constructor
  · rintro ⟨⟨r', rfl⟩, h⟩
    rw [← h, List.drop_left]
  · rintro rfl
    exact ⟨List.prefix_append word r, List.drop_left⟩

/-- What is behind a word is the end of the text. -/
theorem suffix_of_after? (h : after? word t = some r) : r <:+ t :=
  ⟨word, (after?_eq_some_iff.mp h).symm⟩

/-- Behind a word comes what it was put in front of. -/
theorem after?_append : after? word (word ++ t) = some t := after?_eq_some_iff.mpr rfl

/-- A run is read exactly up to where the text is past the class. -/
theorem run?_eq_some_iff : run? f t = some (s, r) ↔
    t = s ++ r ∧ s ≠ [] ∧ (∀ p ∈ s, f p = true) ∧ IsPast f r := by
  constructor
  · intro h
    have htake : t.take (t.takeWhile f).length = t.takeWhile f :=
      (List.prefix_iff_eq_take.mp (List.takeWhile_prefix f)).symm
    have hdrop : t.drop (t.takeWhile f).length = t.dropWhile f := by
      have hleft : (t.takeWhile f ++ t.dropWhile f).drop (t.takeWhile f).length =
          t.dropWhile f := List.drop_left
      rwa [List.takeWhile_append_dropWhile] at hleft
    unfold run? at h
    dsimp only at h
    rw [htake, hdrop] at h
    split at h
    · cases h
    · rename_i hlength
      cases h
      refine ⟨List.takeWhile_append_dropWhile.symm, ?_, fun p hp => List.mem_takeWhile_imp hp,
        isPast_dropWhile f t⟩
      simpa using hlength
  · rintro ⟨rfl, hne, hs, hr⟩
    unfold run?
    dsimp only
    rw [takeWhile_run hs hr, if_neg (by simpa using hne), List.take_left, List.drop_left]

/-- A run that is not empty, and then something past it, is read as such. -/
theorem run?_append (hne : s ≠ []) (hs : ∀ p ∈ s, f p = true) (hr : IsPast f r) :
    run? f (s ++ r) = some (s, r) :=
  run?_eq_some_iff.mpr ⟨rfl, hne, hs, hr⟩

/-- No run is read from a text that is past its class. -/
theorem run?_eq_none (ht : IsPast f t) : run? f t = none := by
  unfold run?
  rw [ht.takeWhile_eq]
  rfl

/-- A gap is read up to where the text is past the blanks. -/
theorem afterBlanks?_eq_some_iff : afterBlanks? t = some r ↔
    ∃ g, IsGap g ∧ t = g ++ r ∧ IsPast Point.isBlank r := by
  unfold afterBlanks?
  rw [Option.map_eq_some_iff]
  constructor
  · rintro ⟨⟨g, r⟩, h, rfl⟩
    obtain ⟨ht, hne, hg, hr⟩ := run?_eq_some_iff.mp h
    exact ⟨g, ⟨hne, hg⟩, ht, hr⟩
  · rintro ⟨g, hg, ht, hr⟩
    exact ⟨(g, r), run?_eq_some_iff.mpr ⟨ht, hg.ne_nil, hg.isBlank, hr⟩, rfl⟩

/-- A gap, and then something past the blanks: the gap is passed. -/
theorem afterBlanks?_append (hs : IsGap s) (hr : IsPast Point.isBlank r) :
    afterBlanks? (s ++ r) = some r :=
  afterBlanks?_eq_some_iff.mpr ⟨s, hs, rfl, hr⟩

/-- What is behind blanks is the end of the text. -/
theorem suffix_of_afterBlanks? (h : afterBlanks? t = some r) : r <:+ t := by
  obtain ⟨g, -, ht, -⟩ := afterBlanks?_eq_some_iff.mp h
  exact ⟨g, ht.symm⟩

/-- A word ends before a text exactly if the text is past the word characters. -/
theorem endsWord_iff : endsWord t = true ↔ IsPast Point.isWord t := by
  unfold endsWord IsPast
  cases t.head? with
  | none => simp
  | some p => simp

end Script

end SurfaceAudit
