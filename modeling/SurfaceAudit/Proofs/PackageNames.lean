import SurfaceAudit.Proofs.Lines
import SurfaceAudit.Proofs.Runs

/-!
# Packages of specifiers

A specifier of a package is the name of the package or a path in it (`Script.Node.IsIn`), and the
name is plain or scoped (`Script.Node.IsName`). These shapes, and what is local, say exactly which
package a specifier has (`Script.Node.package?_eq_some_iff`). So the package of a package is itself
(`Script.Node.package?_package`), and paths in a package do not matter
(`Script.Node.package?_subpath`, `Script.Node.package?_scoped_subpath`).
-/

namespace SurfaceAudit.Script.Node

open Text

/-- The specifier is of no package by its beginning: a file, a module of the runtime or an
address. -/
def isLocal (s : Text) : Bool :=
  s.isEmpty || s.startsWith "." || s.startsWith "/" || s.startsWith "node:" || isAddress s

/-- The name of a package: it is plain, or it is in a scope. -/
inductive IsName : Text → Prop where
  /-- A plain name, without a slash and not behind an at sign. -/
  | plain {p : Text} (slashless : .scalar '/' ∉ p) (unscoped : ∀ q ∈ p.head?, q ≠ .scalar '@') :
      IsName p
  /-- A scope behind an at sign, and a name in it. -/
  | inScope {scope name : Text} (scope_slashless : .scalar '/' ∉ scope)
      (slashless : .scalar '/' ∉ name) (ne_nil : name ≠ []) :
      IsName (.scalar '@' :: (scope ++ .scalar '/' :: name))

/-- A specifier of what is in a package: of the package itself, or a path behind a slash. -/
inductive IsIn (p : Text) : Text → Prop where
  /-- The package. -/
  | package : IsIn p p
  /-- A path in it. -/
  | path (sub : Text) : IsIn p (p ++ .scalar '/' :: sub)

section Local

variable {p s : Text}

/-- What is in a package begins with the name of the package. -/
theorem IsIn.isPrefix (h : IsIn p s) : p <+: s := by
  cases h with
  | package => exact List.prefix_rfl
  | path sub => exact List.prefix_append p _

/-- A specifier is local exactly if it is empty, a path, a module of the runtime or an address. -/
theorem isLocal_iff : isLocal s = true ↔ s = [] ∨ ("." : Text) <+: s ∨ ("/" : Text) <+: s ∨
    ("node:" : Text) <+: s ∨ isAddress s = true := by
  simp only [isLocal, startsWith, Bool.or_eq_true, List.isEmpty_iff, List.isPrefixOf_iff_prefix,
    or_assoc]

/-- An address begins with a scheme, which has no slash and no colon, and then comes a colon. -/
theorem exists_of_isAddress (h : isAddress s = true) : ∃ scheme r, s = scheme ++ ("://" ++ r) ∧
    ∀ q ∈ scheme, (q == .scalar '/' || q == .scalar ':') = false := by
  unfold isAddress at h
  split at h
  · cases h
  · rename_i c r
    extract_lets inScheme at h
    -- A scheme is made of letters, digits and three signs, none of which is a slash or a colon.
    have hscheme {q : Point} (hq : inScheme q = true) :
        (q == .scalar '/' || q == .scalar ':') = false := by
      by_contra hsep
      rw [Bool.not_eq_false, Bool.or_eq_true, beq_iff_eq, beq_iff_eq] at hsep
      rcases hsep with rfl | rfl
      · exact absurd hq (by decide)
      · exact absurd hq (by decide)
    obtain ⟨hc, hafter⟩ := Bool.and_eq_true_iff.mp h
    obtain ⟨r', hr'⟩ := Option.isSome_iff_exists.mp hafter
    have hletter : inScheme c = true := by simp [inScheme, hc]
    refine ⟨c :: r.takeWhile inScheme, r', ?_, List.forall_mem_cons.mpr ⟨hscheme hletter,
      fun q hq => hscheme (List.mem_takeWhile_imp hq)⟩⟩
    rw [List.cons_append, ← after?_eq_some_iff.mp hr', List.takeWhile_append_dropWhile]

/-- Without a slash it is no address. -/
theorem isAddress_eq_false (h : .scalar '/' ∉ p) : isAddress p = false := by
  by_contra haddress
  obtain ⟨scheme, r, rfl, -⟩ := exists_of_isAddress (Bool.not_eq_false _ ▸ haddress)
  exact h (List.mem_append_right _ (List.mem_append_left _ (by decide)))

/-- Without a colon before the slash it is no address either. -/
theorem isAddress_path_eq_false (hslash : .scalar '/' ∉ p) (hcolon : .scalar ':' ∉ p) (sub : Text) :
    isAddress (p ++ .scalar '/' :: sub) = false := by
  by_contra haddress
  obtain ⟨scheme, r, hsplit, hscheme⟩ := exists_of_isAddress (Bool.not_eq_false _ ▸ haddress)
  -- The first slash or colon is the slash on one side and the colon on the other.
  have hp : ∀ q ∈ p, (q == Point.scalar '/' || q == .scalar ':') = false := by
    intro q hq
    have hqslash : q ≠ .scalar '/' := fun heq => hslash (heq ▸ hq)
    have hqcolon : q ≠ .scalar ':' := fun heq => hcolon (heq ▸ hq)
    simp [hqslash, hqcolon]
  have hfirst := (append_cons_unique (q := .scalar ':') hp hscheme (by decide) (by decide)
    hsplit).2.1
  cases hfirst

/-- What begins with an at sign is not local. -/
theorem isLocal_scoped (t : Text) : isLocal (.scalar '@' :: t) = false := rfl

/-- A text without a slash that begins a path begins what is before the slash. -/
theorem isPrefix_of_path {x sub : Text} (hx : .scalar '/' ∉ x)
    (h : x <+: p ++ .scalar '/' :: sub) : x <+: p := by
  obtain ⟨t, ht⟩ := h
  rcases List.append_eq_append_iff.mp ht with ⟨d, rfl, -⟩ | ⟨d, rfl, hd⟩
  · exact List.prefix_append x d
  · cases d with
    | nil => exact (List.append_nil p).symm ▸ List.prefix_rfl
    | cons q d =>
      obtain ⟨rfl, -⟩ := List.cons.inj hd
      exact absurd (List.mem_append_right p List.mem_cons_self) hx

/-- A path in what has no slash and no colon is local exactly if that is. -/
theorem isLocal_path (hslash : .scalar '/' ∉ p) (hcolon : .scalar ':' ∉ p) (sub : Text) :
    isLocal (p ++ .scalar '/' :: sub) = isLocal p := by
  cases p with
  | nil => rfl
  | cons q p =>
    have hpath := isAddress_path_eq_false hslash hcolon sub
    have hplain := isAddress_eq_false hslash
    -- Each prefix that makes a name local is without a slash, or is the slash itself, and so lies
    -- within the name in front.
    have hdot : ("." : Text) <+: q :: p ++ .scalar '/' :: sub ↔ ("." : Text) <+: q :: p :=
      ⟨isPrefix_of_path (by decide), fun h => h.trans (List.prefix_append (q :: p) _)⟩
    have hnode : ("node:" : Text) <+: q :: p ++ .scalar '/' :: sub ↔
        ("node:" : Text) <+: q :: p :=
      ⟨isPrefix_of_path (by decide), fun h => h.trans (List.prefix_append (q :: p) _)⟩
    have hroot : ("/" : Text) <+: q :: p ++ .scalar '/' :: sub ↔ ("/" : Text) <+: q :: p := by
      have hstring : ("/" : Text) = [.scalar '/'] := by decide
      rw [hstring, List.cons_append, List.cons_prefix_cons, List.cons_prefix_cons]
      simp
    have hempty : q :: p ++ .scalar '/' :: sub = [] ↔ q :: p = [] := by simp
    rw [Bool.eq_iff_iff, isLocal_iff, isLocal_iff, hempty, hdot, hroot, hnode, hpath, hplain]

/-- The package of a specifier that is not local is not local. -/
theorem IsIn.isLocal_eq_false (h : IsIn p s) (hp : IsName p) (hs : isLocal s = false) :
    isLocal p = false := by
  by_contra hlocal
  have hs : ¬isLocal s = true := by simp [hs]
  refine hs ?_
  rw [Bool.not_eq_false, isLocal_iff] at hlocal
  rw [isLocal_iff]
  rcases hlocal with rfl | hdot | hroot | hnode | haddress
  · cases h with
    | package => exact .inl rfl
    | path sub => exact .inr (.inr (.inl ⟨sub, rfl⟩))
  · exact .inr (.inl (hdot.trans h.isPrefix))
  · exact .inr (.inr (.inl (hroot.trans h.isPrefix)))
  · exact .inr (.inr (.inr (.inl (hnode.trans h.isPrefix))))
  · cases hp with
    | plain hslash _ => simp [isAddress_eq_false hslash] at haddress
    | inScope _ _ _ => cases haddress

end Local

section Package

variable {p s scope name : Text}

/-- A package that comes with the runtime is none of a third party. -/
def foreign? (p : Text) : Option Text := (some p).filter fun p => !builtins.contains p

/-- A package is foreign exactly if it does not come with the runtime. -/
theorem foreign?_eq_some_iff {q : Text} : foreign? p = some q ↔ p = q ∧ q ∉ builtins := by
  rw [foreign?, Option.filter_eq_some_iff, Option.some.injEq]
  simp

/-- A part without a slash, in front of a slash, is the first field. -/
theorem fields_slash {a t : Text} (ha : .scalar '/' ∉ a) :
    (a ++ .scalar '/' :: t).fields (· == Point.scalar '/') = a :: t.fields (· == .scalar '/') := by
  have hnone : ∀ q ∈ a, (q == Point.scalar '/') = false :=
    fun _ hq => beq_eq_false_iff_ne.mpr fun heq => ha (heq ▸ hq)
  rw [fields_append (by decide), fields_eq_singleton hnone]
  rfl

/-- A text without a slash is its only field. -/
theorem fields_slashless {a : Text} (ha : .scalar '/' ∉ a) :
    a.fields (· == Point.scalar '/') = [a] :=
  fields_eq_singleton fun _ hq => beq_eq_false_iff_ne.mpr fun heq => ha (heq ▸ hq)

/-- What is in a package with a plain name has that package. -/
theorem package?_plain (hslash : .scalar '/' ∉ p) (hat : ∀ q ∈ p.head?, q ≠ .scalar '@')
    (h : IsIn p s) (hs : isLocal s = false) : package? s = foreign? p := by
  have hstart : s.startsWith "@" = false := by
    have hstring : ("@" : Text) = [.scalar '@'] := by decide
    rw [startsWith, hstring]
    cases p with
    | nil => cases h <;> rfl
    | cons q p =>
      have hq : Point.scalar '@' ≠ q := fun heq => hat q rfl heq.symm
      cases h <;> simp [List.isPrefixOf, hq]
  -- The first field is the name, whether or not a path follows.
  have hfields : ∃ rest, s.fields (· == Point.scalar '/') = p :: rest := by
    cases h with
    | package => exact ⟨[], fields_slashless hslash⟩
    | path sub => exact ⟨_, fields_slash hslash⟩
  obtain ⟨rest, hfields⟩ := hfields
  unfold package?
  rw [← isLocal, hs, hfields, hstart]
  cases rest with
  | nil => rfl
  | cons b rest => rfl

/-- What is in a package with a scoped name has that package. -/
theorem package?_scoped (hscope : .scalar '/' ∉ scope) (hslash : .scalar '/' ∉ name)
    (h : IsIn (.scalar '@' :: (scope ++ .scalar '/' :: name)) s) :
    package? s = if name.isEmpty then none
      else foreign? (.scalar '@' :: (scope ++ .scalar '/' :: name)) := by
  have hscope : .scalar '/' ∉ Point.scalar '@' :: scope := by simp [hscope]
  have hat : ∃ t, s = .scalar '@' :: t := by cases h <;> exact ⟨_, rfl⟩
  -- A scoped name takes two fields, and what follows is not looked at.
  have hfields : ∃ rest, s.fields (· == Point.scalar '/') = (.scalar '@' :: scope) :: name ::
      rest := by
    cases h with
    | package => exact ⟨[], (fields_slash hscope).trans (by rw [fields_slashless hslash])⟩
    | path sub =>
      have hsplit : .scalar '@' :: (scope ++ .scalar '/' :: name) ++ .scalar '/' :: sub =
          (Point.scalar '@' :: scope) ++ .scalar '/' :: (name ++ .scalar '/' :: sub) := by simp
      exact ⟨_, by rw [hsplit, fields_slash hscope, fields_slash hslash]⟩
  obtain ⟨t, rfl⟩ := hat
  obtain ⟨rest, hfields⟩ := hfields
  have hslashText : ("/" : Text) = [.scalar '/'] := by decide
  unfold package?
  rw [← isLocal, isLocal_scoped, hfields, hslashText]
  cases name with
  | nil => rfl
  | cons q name =>
    have hstart : startsWith (Point.scalar '@' :: t) "@" = true := rfl
    simp [hstart, foreign?]

/-- A text is in the part of it before the first slash. -/
theorem exists_isIn (s : Text) : ∃ a, .scalar '/' ∉ a ∧ IsIn a s := by
  rcases fields_cases (· == .scalar '/') s with ⟨hnone, -⟩ | ⟨a, c, r, rfl, ha, hc, -⟩
  · exact ⟨s, fun hmem => absurd (hnone _ hmem) (by decide), .package⟩
  · obtain rfl := eq_of_beq hc
    exact ⟨a, fun hmem => absurd (ha _ hmem) (by decide), .path r⟩

/-- A scope alone has no package. -/
theorem package?_scope (hscope : .scalar '/' ∉ scope) : package? (.scalar '@' :: scope) = none := by
  have hslash : .scalar '/' ∉ Point.scalar '@' :: scope := by simp [hscope]
  unfold package?
  rw [← isLocal, isLocal_scoped, fields_slashless hslash]
  rfl

/-- A specifier has a package exactly if it is not local and in this package, which has a proper
name and does not come with the runtime. -/
theorem package?_eq_some_iff : package? s = some p ↔
    isLocal s = false ∧ IsName p ∧ IsIn p s ∧ p ∉ builtins := by
  constructor
  · intro h
    have hs : isLocal s = false := by
      by_contra hlocal
      rw [package?, ← isLocal, if_pos (Bool.not_eq_false _ ▸ hlocal)] at h
      cases h
    obtain ⟨a, hslash, hin⟩ := exists_isIn s
    by_cases hat : ∀ q ∈ a.head?, q ≠ .scalar '@'
    · rw [package?_plain hslash hat hin hs] at h
      obtain ⟨rfl, hforeign⟩ := foreign?_eq_some_iff.mp h
      exact ⟨hs, .plain hslash hat, hin, hforeign⟩
    · -- Before the first slash there is a scope, and behind it the name has to be found.
      obtain ⟨scope, rfl⟩ : ∃ scope, a = .scalar '@' :: scope := by
        cases a with
        | nil => simp at hat
        | cons q scope => exact ⟨scope, by simpa using hat⟩
      have hscope : .scalar '/' ∉ scope := fun hmem => hslash (List.mem_cons_of_mem _ hmem)
      cases hin with
      | package =>
        rw [package?_scope hscope] at h
        cases h
      | path r =>
        obtain ⟨name, hname, hr⟩ := exists_isIn r
        have hin : IsIn (.scalar '@' :: (scope ++ .scalar '/' :: name))
            (.scalar '@' :: scope ++ .scalar '/' :: r) := by
          cases hr with
          | package => exact .package
          | path sub =>
            simpa using IsIn.path (p := .scalar '@' :: (scope ++ .scalar '/' :: name)) sub
        rw [package?_scoped hscope hname hin] at h
        obtain ⟨hne, h⟩ := Option.ite_none_left_eq_some.mp h
        obtain ⟨rfl, hforeign⟩ := foreign?_eq_some_iff.mp h
        exact ⟨hs, .inScope hscope hname (by simpa using hne), hin, hforeign⟩
  · rintro ⟨hs, hname, hin, hforeign⟩
    cases hname with
    | plain hslash hat =>
      rw [package?_plain hslash hat hin hs]
      exact foreign?_eq_some_iff.mpr ⟨rfl, hforeign⟩
    | inScope hscope hslash hne =>
      rw [package?_scoped hscope hslash hin, if_neg (by simpa using hne)]
      exact foreign?_eq_some_iff.mpr ⟨rfl, hforeign⟩

/-- The package of a package is itself. -/
theorem package?_package (h : package? s = some p) : package? p = some p := by
  obtain ⟨hs, hname, hin, hforeign⟩ := package?_eq_some_iff.mp h
  exact package?_eq_some_iff.mpr ⟨hin.isLocal_eq_false hname hs, hname, .package, hforeign⟩

/-- A package has a name. -/
theorem ne_nil_of_package? (h : package? s = some p) : p ≠ [] := by
  rintro rfl
  cases package?_package h

/-- Paths in what has a plain name do not matter. -/
theorem package?_subpath (hslash : .scalar '/' ∉ p) (hcolon : .scalar ':' ∉ p)
    (hat : ∀ q ∈ p.head?, q ≠ .scalar '@') (sub : Text) :
    package? (p ++ .scalar '/' :: sub) = package? p := by
  have hlocal := isLocal_path hslash hcolon sub
  cases hp : isLocal p with
  | true =>
    rw [package?, package?, ← isLocal, ← isLocal, hlocal, hp]
    rfl
  | false =>
    calc package? (p ++ .scalar '/' :: sub) = foreign? p :=
          package?_plain hslash hat (.path sub) (hlocal.trans hp)
      _ = package? p := (package?_plain hslash hat .package hp).symm

/-- Paths in what has a scoped name do not matter. -/
theorem package?_scoped_subpath (hscope : .scalar '/' ∉ scope) (hslash : .scalar '/' ∉ name)
    (sub : Text) :
    package? (.scalar '@' :: (scope ++ .scalar '/' :: (name ++ .scalar '/' :: sub))) =
      package? (.scalar '@' :: (scope ++ .scalar '/' :: name)) := by
  have hin : IsIn (.scalar '@' :: (scope ++ .scalar '/' :: name))
      (.scalar '@' :: (scope ++ .scalar '/' :: (name ++ .scalar '/' :: sub))) := by
    simpa using IsIn.path (p := .scalar '@' :: (scope ++ .scalar '/' :: name)) sub
  rw [package?_scoped hscope hslash hin, package?_scoped hscope hslash .package]

end Package

end SurfaceAudit.Script.Node
