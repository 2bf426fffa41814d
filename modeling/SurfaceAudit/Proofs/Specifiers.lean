import SurfaceAudit.Proofs.PackageNames

/-!
# Specifiers on a line

A line names packages by specifiers in quotes (`Script.Node.Quoted`), in calls and in statements.
Whatever is read on a line is such a specifier (`Script.Node.exists_quoted`). Conversely a call is
read wherever it stands apart from a word before it (`Script.Node.Call.mem_callsFrom`): what is read
earlier on the line cannot reach into it, since a specifier that did would have to end at the quote
of the call, and behind this quote no bracket closes (`Script.Node.Call.apart`). Statements are read
at the start of a line, with a clause before `from` and without
(`Script.Node.statement?_clause`, `Script.Node.statement?_append`).
-/

namespace SurfaceAudit.Script.Node

open Text

/-! ## Specifiers and calls -/

/-- A specifier in quotes, which may differ. There is none in it. -/
inductive Quoted (s : Text) : Text → Prop where
  /-- The specifier, with a quote on each side. -/
  | mk {q q' : Point} (ne_nil : s ≠ []) (quoteless : ∀ p ∈ s, isQuote p = false)
      (opens : isQuote q = true) (closes : isQuote q' = true) : Quoted s (q :: (s ++ [q']))

/-- A call of a word with a specifier in quotes, and blanks perhaps around the brackets. -/
inductive Call (word s : Text) : Text → Prop where
  /-- The word, and the specifier in brackets. -/
  | mk {a b c u : Text} (before : a.IsBlank) (inside : b.IsBlank) (quoted : Quoted s u)
      (behind : c.IsBlank) :
      Call word s (word ++ (a ++ .scalar '(' :: (b ++ (u ++ (c ++ [.scalar ')'])))))

section Reading

variable {word s t r u : Text}

/-- A quote is no blank and no part of a word. -/
theorem of_isQuote {q : Point} (h : isQuote q = true) : q.isBlank = false ∧ q.isWord = false := by
  unfold isQuote at h
  rcases Bool.or_eq_true_iff.mp h with h | h
  · exact eq_of_beq h ▸ by decide
  · exact eq_of_beq h ▸ by decide

/-- There is no quote among blanks. -/
theorem quoteless_of_isBlank {b : Text} (hb : b.IsBlank) : ∀ p ∈ b, isQuote p = false := by
  intro p hp
  by_contra hquote
  have hpoint := (of_isQuote (Bool.not_eq_false _ ▸ hquote)).1
  rw [hb p hp] at hpoint
  cases hpoint

/-- A specifier is read exactly if it is in front, in quotes. -/
theorem specifier?_eq_some_iff : specifier? t = some (s, r) ↔ ∃ u, Quoted s u ∧ t = u ++ r := by
  constructor
  · intro h
    unfold specifier? at h
    split at h
    · cases h
    · rename_i q t
      obtain ⟨hq, hbind⟩ := Option.ite_none_right_eq_some.mp h
      obtain ⟨⟨s', t'⟩, hrun, hread⟩ := Option.bind_eq_some_iff.mp hbind
      obtain ⟨rfl, hne, hs, hend⟩ := run?_eq_some_iff.mp hrun
      cases t' with
      | nil => cases hread
      | cons q' t' =>
        cases hread
        have hq' : isQuote q' = true := by simpa using isPast_cons.mp hend
        exact ⟨_, .mk hne (fun p hp => by simpa using hs p hp) hq hq', by simp⟩
  · rintro ⟨u, @⟨q, q', hne, hs, hq, hq'⟩, rfl⟩
    -- The quote at the end is the first one behind the name, whichever of the two kinds it is.
    have hrun : run? (!isQuote ·) (s ++ q' :: r) = some (s, q' :: r) :=
      run?_append hne (fun p hp => by simp [hs p hp]) (isPast_cons.mpr (by simp [hq']))
    have hsplit : q :: (s ++ [q']) ++ r = q :: (s ++ q' :: r) := by simp
    rw [hsplit, specifier?, if_pos hq, hrun]
    rfl

/-- A specifier in quotes begins with what is no blank. -/
theorem Quoted.isPast (h : Quoted s u) : IsPast Point.isBlank (u ++ t) := by
  obtain ⟨-, -, hq, -⟩ := h
  exact isPast_cons.mpr (of_isQuote hq).1

/-- Blanks are skipped up to what is none. -/
theorem skip_append {a : Text} (ha : a.IsBlank) (ht : IsPast Point.isBlank t) :
    skip (a ++ t) = t := dropWhile_run ha ht

/-- Before what is left by skipping there are blanks. -/
theorem exists_skip (t : Text) : ∃ a, IsBlank a ∧ t = a ++ skip t :=
  ⟨t.takeWhile Point.isBlank, fun _ hp => List.mem_takeWhile_imp hp,
    List.takeWhile_append_dropWhile.symm⟩

/-- A call is read exactly if it is in front. -/
theorem call?_eq_some_iff : call? word t = some (s, r) ↔ ∃ u, Call word s u ∧ t = u ++ r := by
  constructor
  · intro h
    obtain ⟨t₁, h₁, h⟩ := Option.bind_eq_some_iff.mp h
    obtain ⟨t₂, h₂, h⟩ := Option.bind_eq_some_iff.mp h
    obtain ⟨⟨s', t₃⟩, h₃, h⟩ := Option.bind_eq_some_iff.mp h
    obtain ⟨t₄, h₄, h⟩ := Option.bind_eq_some_iff.mp h
    cases h
    -- Between the four parts of a call there may be blanks, and they are passed over as far as
    -- there are any.
    obtain ⟨a, ha, hat⟩ := exists_skip t₁
    obtain ⟨b, hb, hbt⟩ := exists_skip t₂
    obtain ⟨u, hu, hut⟩ := specifier?_eq_some_iff.mp h₃
    obtain ⟨c, hc, hct⟩ := exists_skip t₃
    refine ⟨_, .mk ha hb hu hc, ?_⟩
    rw [after?_eq_some_iff.mp h₁, hat, after?_eq_some_iff.mp h₂, hbt, hut, hct,
      after?_eq_some_iff.mp h₄]
    have hopen : ("(" : Text) = [.scalar '('] := by decide
    have hclose : (")" : Text) = [.scalar ')'] := by decide
    simp [hopen, hclose]
  · rintro ⟨u, @⟨a, b, c, u, ha, hb, hu, hc⟩, rfl⟩
    have hopen : IsPast Point.isBlank (.scalar '(' :: (b ++ (u ++ (c ++ .scalar ')' :: r)))) :=
      isPast_cons.mpr (by decide)
    have hclose : IsPast Point.isBlank (.scalar ')' :: r) := isPast_cons.mpr (by decide)
    have hread : specifier? (u ++ (c ++ .scalar ')' :: r)) = some (s, c ++ .scalar ')' :: r) :=
      specifier?_eq_some_iff.mpr ⟨u, hu, rfl⟩
    have hbracket (t : Text) : after? "(" (.scalar '(' :: t) = some t :=
      after?_eq_some_iff.mpr rfl
    have hbracket' (t : Text) : after? ")" (.scalar ')' :: t) = some t :=
      after?_eq_some_iff.mpr rfl
    have hsplit : word ++ (a ++ .scalar '(' :: (b ++ (u ++ (c ++ [.scalar ')'])))) ++ r =
        word ++ (a ++ .scalar '(' :: (b ++ (u ++ (c ++ .scalar ')' :: r)))) := by simp
    rw [hsplit, call?, after?_append]
    simp only [Option.bind_eq_bind, Option.bind_some, skip_append ha hopen, hbracket,
      skip_append hb hu.isPast, hread, skip_append hc hclose, hbracket']
    rfl

/-- Reading goes on behind a call if there is one in front that no word goes on into, and else at
the next code point. -/
theorem callsFrom_cases (word : Text) (bound : Nat) (inWord : Bool) (p : Point) (t : Text) :
    (∃ s x r, inWord = false ∧ Call word s x ∧ p :: t = x ++ r ∧
      callsFrom word (bound + 1) inWord (p :: t) = s :: callsFrom word bound false r) ∨
    (inWord = true ∨ call? word (p :: t) = none) ∧
      callsFrom word (bound + 1) inWord (p :: t) = callsFrom word bound p.isWord t := by
  rw [callsFrom]
  cases inWord with
  | true => exact .inr ⟨.inl rfl, rfl⟩
  | false =>
    cases hcall : call? word (p :: t) with
    | none => exact .inr ⟨.inr rfl, rfl⟩
    | some found =>
      obtain ⟨s, r⟩ := found
      obtain ⟨x, hx, hsplit⟩ := call?_eq_some_iff.mp hcall
      exact .inl ⟨s, x, r, rfl, hx, hsplit, rfl⟩

/-- A call that is read is a call. -/
theorem exists_call {bound : Nat} {inWord : Bool} (h : s ∈ callsFrom word bound inWord t) :
    ∃ u, Call word s u ∧ u <:+: t := by
  -- On the bound, for whatever is left of the line.
  induction bound generalizing inWord t with
  | zero => cases h
  | succ bound ih =>
    cases t with
    | nil => cases h
    | cons p t =>
      rcases callsFrom_cases word bound inWord p t with
        ⟨s', x, rest, -, hx, hsplit, heq⟩ | ⟨-, heq⟩
      · rw [heq] at h
        rw [hsplit]
        rcases List.mem_cons.mp h with rfl | h
        · exact ⟨x, hx, (List.prefix_append x rest).isInfix⟩
        · obtain ⟨u, hu, hinfix⟩ := ih h
          exact ⟨u, hu, hinfix.trans (List.suffix_append x rest).isInfix⟩
      · obtain ⟨u, hu, hinfix⟩ := ih (heq ▸ h)
        exact ⟨u, hu, hinfix.trans (List.suffix_cons p t).isInfix⟩

end Reading

/-! ## Calls do not overlap -/

section Overlap

variable {word s s' a r u v w x y rest : Text}

/-- What begins a word does not begin in what has no part of a word. -/
theorem append_eq_append_apart (hv : ∀ p ∈ v.head?, p.isWord = true)
    (hw : ∀ p ∈ w, p.isWord = false) (h : a ++ v = w ++ y) : ∃ b, a = w ++ b ∧ y = b ++ v := by
  rcases List.append_eq_append_iff.mp h with ⟨c, rfl, rfl⟩ | ⟨b, rfl, rfl⟩
  · cases c with
    | nil => exact ⟨[], by simp, by simp⟩
    | cons p c =>
      have hp : p.isWord = false := hw p (by simp)
      rw [hv p rfl] at hp
      cases hp
  · exact ⟨b, rfl, rfl⟩

/-- What begins where no word goes on does not begin in a word in front. -/
theorem append_eq_append_word (ha : a ≠ []) (hlast : ∀ p ∈ a.getLast?, p.isWord = false)
    (hw : ∀ p ∈ w, p.isWord = true) (h : a ++ v = w ++ y) : ∃ b, a = w ++ b ∧ y = b ++ v := by
  rcases List.append_eq_append_iff.mp h with ⟨c, hc, -⟩ | ⟨b, hb, hy⟩
  · obtain ⟨p, hp⟩ : ∃ p, a.getLast? = some p :=
      Option.isSome_iff_exists.mp (List.getLast?_isSome.mpr ha)
    have hmem : p ∈ w := hc ▸ List.mem_append_left c (List.mem_of_mem_getLast? hp)
    have hword := hlast p hp
    rw [hw p hmem] at hword
    cases hword
  · exact ⟨b, hb, hy⟩

/-- A specifier that reaches into a call ends with the quote of the call, and behind it no bracket
closes. -/
theorem Call.ne_append {b e : Text} {q : Point} (hu : Call word s u)
    (hword : ∀ p ∈ word, p.isWord = true)
    (hs : ∀ p ∈ s.head?, p.isBlank = false ∧ p ≠ .scalar ')')
    (he : ∀ p ∈ e, isQuote p = false) (hq : isQuote q = true) (hb : b.IsBlank) :
    u ++ r ≠ e ++ q :: (b ++ .scalar ')' :: rest) := by
  intro h
  obtain ⟨hb₁, hb₂, hquoted, -⟩ := hu
  rename_i b₁ b₂ b₃ u
  obtain ⟨hne, -, hopen, -⟩ := hquoted
  rename_i q₁ q₂
  -- Before the quote of the call there is no other.
  have hbefore : ∀ p ∈ word ++ (b₁ ++ .scalar '(' :: b₂), isQuote p = false := by
    simp only [List.forall_mem_append, List.forall_mem_cons]
    refine ⟨fun p hp => ?_, quoteless_of_isBlank hb₁, by decide, quoteless_of_isBlank hb₂⟩
    by_contra hquote
    have hpoint := (of_isQuote (Bool.not_eq_false _ ▸ hquote)).2
    rw [hword p hp] at hpoint
    cases hpoint
  have hsplit : word ++ (b₁ ++ .scalar '(' :: b₂) ++ q₁ :: (s ++ q₂ :: (b₃ ++ .scalar ')' :: r)) =
      e ++ q :: (b ++ .scalar ')' :: rest) := by
    rw [← h]
    simp
  obtain ⟨-, -, hrest⟩ := append_cons_unique hbefore he hopen hq hsplit
  obtain ⟨p, s, rfl⟩ := List.exists_cons_of_ne_nil hne
  obtain ⟨hp, hbracket⟩ := hs p rfl
  cases b with
  | nil => exact hbracket (List.cons.inj hrest).1
  | cons p' b =>
    obtain rfl : p = p' := (List.cons.inj hrest).1
    rw [hb p List.mem_cons_self] at hp
    cases hp

/-- What is read in front of a call that stands apart ends before the call. -/
theorem Call.apart (hu : Call word s u) (hx : Call word s' x) (hne : word ≠ [])
    (hword : ∀ p ∈ word, p.isWord = true)
    (hs : ∀ p ∈ s.head?, p.isBlank = false ∧ p ≠ .scalar ')') (ha : a ≠ [])
    (hlast : ∀ p ∈ a.getLast?, p.isWord = false) (h : a ++ (u ++ r) = x ++ rest) :
    ∃ b, a = x ++ b ∧ rest = b ++ (u ++ r) := by
  obtain ⟨hb₁, hb₂, hq, hb₃⟩ := hx
  rename_i b₁ b₂ b₃ q
  obtain ⟨hne', hs', hopen, hclose⟩ := hq
  rename_i q q'
  have hstart : ∀ p ∈ (u ++ r).head?, p.isWord = true := by
    obtain ⟨-, -, -, -⟩ := hu
    rw [List.append_assoc, List.head?_append_of_ne_nil _ hne]
    exact fun p hp => hword p (List.mem_of_mem_head? hp)
  have hblank {b : Text} (hb : b.IsBlank) : ∀ p ∈ b, p.isWord = false :=
    fun p hp => Point.isWord_of_isBlank (hb p hp)
  -- The call does not begin in the word, which would go on into it.
  have hsplit : a ++ (u ++ r) = word ++ (b₁ ++ .scalar '(' :: (b₂ ++ [q]) ++
      (s' ++ q' :: (b₃ ++ .scalar ')' :: rest))) := by
    rw [h]
    simp
  obtain ⟨c, rfl, hc⟩ := append_eq_append_word ha hlast hword hsplit
  -- Nor does it begin between the word and the specifier.
  have hbefore : ∀ p ∈ b₁ ++ .scalar '(' :: (b₂ ++ [q]), p.isWord = false := by
    simp only [List.forall_mem_append, List.forall_mem_cons, List.not_mem_nil, IsEmpty.forall_iff,
      implies_true, and_true]
    exact ⟨hblank hb₁, by decide, hblank hb₂, (of_isQuote hopen).2⟩
  obtain ⟨d, rfl, hd⟩ := append_eq_append_apart hstart hbefore hc.symm
  obtain ⟨e, rfl, he⟩ : ∃ e, d = s' ++ e ∧
      q' :: (b₃ ++ [.scalar ')']) ++ rest = e ++ (u ++ r) := by
    rcases List.append_eq_append_iff.mp hd with ⟨e, rfl, he⟩ | ⟨e, rfl, he⟩
    · exact ⟨e, rfl, by simpa using he⟩
    · have hquoteless : ∀ p ∈ e, isQuote p = false :=
        fun p hp => hs' p (List.mem_append_right d hp)
      exact (hu.ne_append hword hs hquoteless hclose hb₃ he).elim
  -- Nor behind it.
  have hbehind : ∀ p ∈ q' :: (b₃ ++ [.scalar ')']), p.isWord = false := by
    simp only [List.forall_mem_append, List.forall_mem_cons, List.not_mem_nil, IsEmpty.forall_iff,
      implies_true, and_true]
    exact ⟨(of_isQuote hclose).2, hblank hb₃, by decide⟩
  obtain ⟨f, rfl, hf⟩ := append_eq_append_apart hstart hbehind he.symm
  exact ⟨f, by simp, hf⟩

/-- A call that stands apart is read wherever it is on the line. -/
theorem Call.mem_callsFrom (hu : Call word s u) (hne : word ≠ [])
    (hword : ∀ p ∈ word, p.isWord = true)
    (hs : ∀ p ∈ s.head?, p.isBlank = false ∧ p ≠ .scalar ')') {bound : Nat} {inWord : Bool}
    (hin : a = [] → inWord = false) (hlast : ∀ p ∈ a.getLast?, p.isWord = false)
    (hbound : (a ++ (u ++ r)).length < bound) :
    s ∈ callsFrom word bound inWord (a ++ (u ++ r)) := by
  -- On the bound, for whatever is left in front of the call.
  induction bound generalizing a inWord with
  | zero => cases hbound
  | succ bound ih =>
    cases a with
    | nil =>
      obtain ⟨p, t, ht⟩ : ∃ p t, u ++ r = p :: t := by
        obtain ⟨-, -, -, -⟩ := hu
        exact List.exists_cons_of_ne_nil (by simp [hne])
      have hcall : call? word (p :: t) = some (s, r) := call?_eq_some_iff.mpr ⟨u, hu, ht.symm⟩
      rw [List.nil_append, ht, callsFrom, hin rfl]
      simp [hcall]
    | cons p a =>
      rcases callsFrom_cases word bound inWord p (a ++ (u ++ r)) with
        ⟨s', x, rest, -, hx, hsplit, heq⟩ | ⟨-, heq⟩
      · -- A call is read in front, and goes up to somewhere before the call.
        obtain ⟨b, hab, rfl⟩ := hu.apart hx hne hword hs (List.cons_ne_nil p a) hlast hsplit
        have hb : ∀ q ∈ b.getLast?, q.isWord = false :=
          forall_getLast?_of_suffix ⟨x, hab.symm⟩ hlast
        have hpos : 0 < x.length := by
          obtain ⟨-, -, -, -⟩ := hx
          rw [List.length_append]
          have hlength := List.length_pos_iff.mpr hne
          omega
        rw [List.cons_append, heq]
        refine List.mem_cons_of_mem _ (ih (fun _ => rfl) hb ?_)
        rw [hab, List.append_assoc, List.length_append] at hbound
        omega
      · rw [List.cons_append, heq]
        refine ih (fun ha => ?_) ?_ (by simpa using hbound)
        · exact hlast p (by rw [ha]; rfl)
        · exact forall_getLast?_of_suffix (List.suffix_cons p a) hlast

end Overlap

/-! ## Statements -/

section Statements

variable {a b d g keyword line p r s u w : Text} {clauseless : Bool}

/-- A clause ends with `from`, perhaps before blanks, if no word goes on into it. -/
theorem endsWithFrom_append (hd : ∀ p ∈ d.getLast?, p.isWord = false) (hb : b.IsBlank) :
    endsWithFrom (d ++ ("from" ++ b)) = true := by
  -- The end of a clause is read backwards, so the word is met as its letters in reverse.
  have hrev : (d ++ ("from" ++ b)).reverse.dropWhile Point.isBlank =
      .scalar 'm' :: .scalar 'o' :: .scalar 'r' :: .scalar 'f' :: d.reverse := by
    have hreverse : (d ++ ("from" ++ b)).reverse = b.reverse ++
        (.scalar 'm' :: .scalar 'o' :: .scalar 'r' :: .scalar 'f' :: d.reverse) := by
      have hfrom : ("from" : Text).reverse =
          [.scalar 'm', .scalar 'o', .scalar 'r', .scalar 'f'] := by decide
      rw [List.reverse_append, List.reverse_append, hfrom, List.append_assoc]
      rfl
    rw [hreverse]
    exact dropWhile_run (fun p hp => hb p (List.mem_reverse.mp hp)) (isPast_cons.mpr (by decide))
  unfold endsWithFrom
  rw [hrev]
  show (!(d.reverse.head?.map Point.isWord).getD false) = true
  rw [List.head?_reverse]
  cases hlast : d.getLast? with
  | none => rfl
  | some p => simp [hd p hlast]

/-- The specifier of a statement is read behind its clause. -/
theorem statement?_append (hkeyword : IsPast Point.isBlank keyword) (hne : keyword ≠ [])
    (ha : a.IsBlank) (hg : g.IsGap) (hw : ∀ p ∈ w, isQuote p = false)
    (hpast : IsPast Point.isBlank w) (hu : Quoted s u)
    (hend : (endsWithFrom w || (clauseless && w.isEmpty)) = true) :
    statement? keyword clauseless (a ++ (keyword ++ (g ++ (w ++ (u ++ r))))) = some s := by
  have hquote : IsPast (!isQuote ·) (u ++ r) := by
    obtain ⟨-, -, hq, -⟩ := hu
    exact isPast_cons.mpr (by simp [hq])
  have hquoteless : ∀ p ∈ w, (!isQuote p) = true := fun p hp => by simp [hw p hp]
  have hread : specifier? (u ++ r) = some (s, r) := specifier?_eq_some_iff.mpr ⟨u, hu, rfl⟩
  have hstart : IsPast Point.isBlank (keyword ++ (g ++ (w ++ (u ++ r)))) :=
    (isPast_append hne).mpr hkeyword
  unfold statement?
  rw [skip_append ha hstart, after?_append]
  simp only [Option.bind_eq_bind, Option.bind_some,
    afterBlanks?_append hg (hpast.append hu.isPast), takeWhile_run hquoteless hquote,
    dropWhile_run hquoteless hquote, hread, hend, if_true]

/-- So it is behind whatever clause that is set off by blanks and has no quotes. -/
theorem statement?_clause {c h : Text} (hkeyword : IsPast Point.isBlank keyword)
    (hne : keyword ≠ []) (ha : a.IsBlank) (hg : g.IsGap) (hc : ∀ p ∈ c, isQuote p = false)
    (hh : h.IsGap) (hb : b.IsBlank) (hu : Quoted s u) : statement? keyword clauseless
      (a ++ (keyword ++ (g ++ (c ++ (h ++ ("from" ++ (b ++ (u ++ r)))))))) = some s := by
  -- The blanks at the start of the clause belong to the gap before it.
  have hsplit : a ++ (keyword ++ (g ++ (c ++ (h ++ ("from" ++ (b ++ (u ++ r))))))) =
      a ++ (keyword ++ (g ++ (c ++ h).takeWhile Point.isBlank ++
        ((c ++ h).dropWhile Point.isBlank ++ ("from" ++ b) ++ (u ++ r)))) := by
    have hclause : (c ++ h).takeWhile Point.isBlank ++ ((c ++ h).dropWhile Point.isBlank ++
        ("from" ++ (b ++ (u ++ r)))) = c ++ (h ++ ("from" ++ (b ++ (u ++ r)))) := by
      rw [← List.append_assoc, List.takeWhile_append_dropWhile, List.append_assoc]
    rw [← hclause]
    simp only [List.append_assoc]
  have hgap : (g ++ (c ++ h).takeWhile Point.isBlank).IsGap :=
    ⟨List.append_ne_nil_of_left_ne_nil hg.ne_nil _, List.forall_mem_append.mpr
      ⟨hg.isBlank, fun p hp => List.mem_takeWhile_imp hp⟩⟩
  have hfrom : IsPast Point.isBlank ("from" ++ b : Text) := isPast_cons.mpr (by decide)
  have hmem : ∀ p ∈ (c ++ h).dropWhile Point.isBlank ++ ("from" ++ b), isQuote p = false := by
    have hrest : ∀ p ∈ c ++ h, isQuote p = false :=
      List.forall_mem_append.mpr ⟨hc, quoteless_of_isBlank hh.isBlank⟩
    exact List.forall_mem_append.mpr ⟨fun p hp => hrest p (List.dropWhile_subset _ hp),
      List.forall_mem_append.mpr ⟨by decide, quoteless_of_isBlank hb⟩⟩
  have hlast : ∀ p ∈ ((c ++ h).dropWhile Point.isBlank).getLast?, p.isWord = false := by
    refine forall_getLast?_of_suffix (List.dropWhile_suffix Point.isBlank) fun p hp => ?_
    rw [List.getLast?_append_of_ne_nil c hh.ne_nil] at hp
    exact Point.isWord_of_isBlank (hh.isBlank p (List.mem_of_mem_getLast? hp))
  rw [hsplit]
  refine statement?_append hkeyword hne ha hgap hmem
    ((isPast_dropWhile Point.isBlank (c ++ h)).append hfrom) hu ?_
  rw [endsWithFrom_append hlast hb, Bool.true_or]

/-- The specifier of a statement is in quotes on its line. -/
theorem exists_quoted_of_statement? (h : statement? keyword clauseless line = some s) :
    ∃ u, Quoted s u ∧ u <:+: line := by
  obtain ⟨t₁, h₁, h⟩ := Option.bind_eq_some_iff.mp h
  obtain ⟨t₂, h₂, h⟩ := Option.bind_eq_some_iff.mp h
  obtain ⟨⟨s', r⟩, h₃, h⟩ := Option.bind_eq_some_iff.mp h
  obtain ⟨-, h⟩ := Option.ite_none_right_eq_some.mp h
  obtain rfl := Option.some.inj h
  obtain ⟨u, hu, hread⟩ := specifier?_eq_some_iff.mp h₃
  have hclause : u ++ r <:+ t₂ := hread ▸ List.dropWhile_suffix _
  have hline : t₂ <:+ line := (suffix_of_afterBlanks? h₂).trans
    ((suffix_of_after? h₁).trans (List.dropWhile_suffix Point.isBlank))
  exact ⟨u, hu, (List.prefix_append u r).isInfix.trans (hclause.trans hline).isInfix⟩

/-- Whatever specifier is read on a line stands there in quotes. -/
theorem exists_quoted (h : s ∈ specifiers line) : ∃ u, Quoted s u ∧ u <:+: line := by
  have hcall {word : Text} (h : s ∈ calls word line) : ∃ u, Quoted s u ∧ u <:+: line := by
    obtain ⟨x, hx, hinfix⟩ := exists_call h
    obtain ⟨-, -, hu, -⟩ := hx
    rename_i a b c u
    refine ⟨u, hu, List.IsInfix.trans ⟨word ++ (a ++ .scalar '(' :: b), c ++ [.scalar ')'], ?_⟩
      hinfix⟩
    simp
  simp only [specifiers, List.mem_append, Option.mem_toList] at h
  rcases h with ((h | h) | h) | h
  · exact hcall h
  · exact hcall h
  · exact exists_quoted_of_statement? h
  · exact exists_quoted_of_statement? h

/-- A line names the packages of the specifiers on it. -/
theorem mem_packages_iff : p ∈ packages line ↔ ∃ s ∈ specifiers line, package? s = some p := by
  rw [packages, List.mem_filter, List.mem_filterMap]
  constructor
  · exact fun h => h.1
  · rintro ⟨s, hs, hp⟩
    exact ⟨⟨s, hs, hp⟩, by simpa using ne_nil_of_package? hp⟩

end Statements

end SurfaceAudit.Script.Node
