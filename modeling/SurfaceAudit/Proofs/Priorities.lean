import SurfaceAudit.Proofs.RuleEntries
import SurfaceAudit.Proofs.Walk

/-!
# Rules with priorities of their own

Rules for commands are published in the order of their priorities. Of several with one priority the
first is kept, and each of the others is noted together with it. `CommandRule.Keeps` says so of what
was gone through; one more rule keeps it so (`CommandRule.Keeps.keep`,
`CommandRule.Keeps.clash_with`), and a whole run does (`RuleStore.Loading.reads_distinct`). The
order in which the rules were read decides only which of those with one priority is the first, since
sorting leaves these in their order (`RuleStore.Loading.withPriority_byPriority`).
-/

namespace SurfaceAudit

/-- Two rules with the same priority, which has a written form. -/
structure PriorityClash where
  /-- The priority as it is written. -/
  shown : Text
  /-- The rule that is kept. -/
  first : CommandRule
  /-- The rule that is not. -/
  other : CommandRule

/-- The note on two rules with the same priority. -/
def PriorityClash.note (c : PriorityClash) : RuleDefect :=
  .samePriority c.shown c.first.signal c.other.signal

namespace CommandRule

/-- The rules of a priority, in their order. -/
def withPriority (rules : List CommandRule) (p : Int) : List CommandRule :=
  rules.filter fun rule => rule.priority == p

/-- Of some rules, the first of each priority is kept, and each other one clashes with it. -/
structure Keeps (rules kept : List CommandRule) (clashes : List PriorityClash) : Prop where
  /-- What is kept stays in order. -/
  sublist : kept.Sublist rules
  /-- The priorities of what is kept differ. -/
  apart : kept.Pairwise fun a b => a.priority ≠ b.priority
  /-- Of each priority, the first rule is kept. -/
  first : ∀ p, withPriority kept p = (withPriority rules p).take 1
  /-- Every other rule of a priority clashes once. -/
  others : ∀ p, (clashes.map (·.other)).filter (fun rule => rule.priority == p) =
    (withPriority rules p).tail
  /-- A rule clashes with the one that is kept, and their priority can be shown. -/
  clash : ∀ c ∈ clashes, c.first ∈ kept ∧ c.first.priority = c.other.priority ∧
    Number.writeInt c.other.priority = .ok c.shown

/-- Of no rules, none is kept and none clashes. -/
theorem keeps_nil : Keeps [] [] [] := ⟨.slnil, .nil, fun _ => rfl, fun _ => rfl, by simp⟩

/-- The rules of a priority in two lists are those in the first, then those in the second. -/
theorem withPriority_append (rules more : List CommandRule) (p : Int) :
    withPriority (rules ++ more) p = withPriority rules p ++ withPriority more p :=
  List.filter_append ..

/-- A rule alone has its own priority. -/
theorem withPriority_self (rule : CommandRule) : withPriority [rule] rule.priority = [rule] := by
  simp [withPriority]

/-- A rule alone has no other priority. -/
theorem withPriority_other {rule : CommandRule} {p : Int} (h : rule.priority ≠ p) :
    withPriority [rule] p = [] := by
  simp [withPriority, h]

/-- A rule whose priority is new is kept. -/
theorem Keeps.keep {rules kept : List CommandRule} {clashes : List PriorityClash}
    (h : Keeps rules kept clashes) {rule : CommandRule}
    (hnew : ∀ r ∈ kept, r.priority ≠ rule.priority) :
    Keeps (rules ++ [rule]) (kept ++ [rule]) clashes := by
  -- No rule that was gone through has the priority, since the first of them would have been kept.
  have hnone : withPriority rules rule.priority = [] := by
    have hkept : withPriority kept rule.priority = [] := by
      simpa [withPriority] using hnew
    simpa [hkept] using h.first rule.priority
  refine ⟨h.sublist.append (.refl _), ?_, fun p => ?_, fun p => ?_, fun c hc => ?_⟩
  · exact List.pairwise_append.mpr ⟨h.apart, List.pairwise_singleton .., by simpa using hnew⟩
  · rw [withPriority_append, withPriority_append, h.first]
    by_cases hp : rule.priority = p
    · subst hp
      simp [hnone, withPriority_self]
    · simp [withPriority_other hp]
  · rw [h.others, withPriority_append]
    by_cases hp : rule.priority = p
    · subst hp
      simp [hnone, withPriority_self]
    · simp [withPriority_other hp]
  · obtain ⟨hmem, hpriority, hshown⟩ := h.clash c hc
    exact ⟨List.mem_append_left _ hmem, hpriority, hshown⟩

/-- A rule with the priority of one that is kept clashes with that. -/
theorem Keeps.clash_with {rules kept : List CommandRule} {clashes : List PriorityClash}
    (h : Keeps rules kept clashes) {first rule : CommandRule} {shown : Text} (hfirst : first ∈ kept)
    (hp : first.priority = rule.priority) (hshown : Number.writeInt rule.priority = .ok shown) :
    Keeps (rules ++ [rule]) kept (clashes ++ [⟨shown, first, rule⟩]) := by
  have hsome : withPriority rules rule.priority ≠ [] := by
    have hmem : first ∈ withPriority rules rule.priority :=
      List.mem_filter.mpr ⟨h.sublist.subset hfirst, beq_iff_eq.mpr hp⟩
    exact List.ne_nil_of_mem hmem
  -- For the priority of the new rule there is one more rule behind the first, for others nothing
  -- changes.
  refine ⟨h.sublist.trans (List.sublist_append_left ..), h.apart, fun p => ?_, fun p => ?_, ?_⟩
  · rw [h.first, withPriority_append]
    by_cases hp : rule.priority = p
    · subst hp
      obtain ⟨x, r, hx⟩ := List.exists_cons_of_ne_nil hsome
      simp [hx]
    · simp [withPriority_other hp]
  · rw [List.map_append, List.filter_append, h.others, withPriority_append]
    by_cases hp : rule.priority = p
    · subst hp
      simp [List.tail_append_of_ne_nil hsome, withPriority_self]
    · simp [withPriority_other hp, hp]
  · exact List.forall_mem_append.mpr
      ⟨h.clash, List.forall_mem_singleton.mpr ⟨hfirst, hp, hshown⟩⟩

/-- Two rules have the same priority, and it cannot be shown. -/
def StopsOrder (rules : List CommandRule) (f : Fault) : Prop :=
  ∃ p, 2 ≤ (withPriority rules p).length ∧ Number.writeInt p = .error f

/-- If all clashes could be noted, no priority stopped the run. -/
theorem Keeps.not_stopsOrder {rules kept : List CommandRule} {clashes : List PriorityClash}
    (h : Keeps rules kept clashes) (f : Fault) : ¬StopsOrder rules f := by
  rintro ⟨p, hlength, hshown⟩
  -- The second rule of the priority clashes, and its note holds the written priority.
  have htail : (withPriority rules p).tail ≠ [] := by
    rw [← List.length_pos_iff, List.length_tail]
    omega
  obtain ⟨rule, r, hrule⟩ := List.exists_cons_of_ne_nil htail
  have hmem : rule ∈ (clashes.map (·.other)).filter (fun rule => rule.priority == p) := by
    rw [h.others, hrule]
    exact List.mem_cons_self
  obtain ⟨hmem, hp⟩ := List.mem_filter.mp hmem
  obtain ⟨c, hc, rfl⟩ := List.mem_map.mp hmem
  have hwritten := (h.clash c hc).2.2
  rw [beq_iff_eq.mp hp, hshown] at hwritten
  cases hwritten

/-- A priority of which one rule is kept, and another comes after it, occurs twice. -/
theorem Keeps.two_le {rules kept : List CommandRule} {clashes : List PriorityClash}
    (h : Keeps rules kept clashes) {first rule : CommandRule} (hfirst : first ∈ kept)
    (hp : first.priority = rule.priority) (more : List CommandRule) :
    2 ≤ (withPriority (rules ++ rule :: more) rule.priority).length := by
  have hmem : first ∈ withPriority rules rule.priority :=
    List.mem_filter.mpr ⟨h.sublist.subset hfirst, beq_iff_eq.mpr hp⟩
  have hbefore := List.length_pos_of_mem hmem
  have hafter : 0 < (withPriority (rule :: more) rule.priority).length :=
    List.length_pos_of_mem (List.mem_filter.mpr ⟨List.mem_cons_self, by simp⟩)
  rw [withPriority_append, List.length_append]
  omega

end CommandRule

namespace RuleStore.Loading

open CommandRule

/-- Going through rules keeps the first of each priority and notes the others, unless a priority
that occurs twice cannot be shown. -/
theorem reads_distinct {rules kept : List CommandRule} {clashes : List PriorityClash}
    (h : Keeps rules kept.reverse clashes) (more : List CommandRule) :
    (distinct more kept).Reads (StopsOrder (rules ++ more)) fun all added =>
      ∃ further, Keeps (rules ++ more) all (clashes ++ further) ∧
        added = further.map fun c => .defect c.note := by
  -- The invariant of the loop is `Keeps`: what is kept so far are the first rules of each priority,
  -- and the clashes are the others.
  induction more generalizing rules kept clashes with
  | nil =>
    rw [List.append_nil]
    exact .pure h.not_stopsOrder ⟨[], by rwa [List.append_nil], rfl⟩
  | cons rule r ih =>
    have hsplit : rules ++ rule :: r = rules ++ [rule] ++ r := by simp
    unfold distinct
    cases hfind : kept.find? (·.priority == rule.priority) with
    | some first =>
      have hmem : first ∈ kept.reverse := List.mem_reverse.mpr (List.mem_of_find?_eq_some hfind)
      have hp : first.priority = rule.priority := by simpa using List.find?_some hfind
      refine .ofAttempt_bind (fun f hf => ⟨rule.priority, h.two_le hmem hp r, hf⟩)
        fun shown hshown => .note_bind ?_
      obtain ⟨outcome, added, hy, hend⟩ := ih (h.clash_with hmem hp hshown)
      rw [hsplit]
      refine ⟨outcome, added, hy, ?_⟩
      cases hend with
      | fault hf => exact .fault hf
      | value hs hr =>
        obtain ⟨further, hkeeps, rfl⟩ := hr
        exact .value hs ⟨⟨shown, first, rule⟩ :: further, by simpa using hkeeps, rfl⟩
    | none =>
      have hnew : ∀ x ∈ kept.reverse, x.priority ≠ rule.priority := by
        simpa using hfind
      have hkeep : Keeps (rules ++ [rule]) (rule :: kept).reverse clashes := by
        rw [List.reverse_cons]
        exact h.keep hnew
      rw [hsplit]
      exact ih hkeep

/-- Rules are sorted by an insertion sort. -/
theorem byPriority_eq (rules : List CommandRule) :
    byPriority rules = rules.insertionSort fun a b => a.priority ≤ b.priority := by
  simp only [byPriority, Rank.sort_eq, decide_eq_true_eq]

/-- Sorting leaves rules with the same priority in their order. -/
theorem withPriority_byPriority (rules : List CommandRule) (p : Int) :
    withPriority (byPriority rules) p = withPriority rules p := by
  have hsame : (withPriority rules p).Pairwise fun a b => a.priority ≤ b.priority := by
    refine List.pairwise_of_forall_mem_list fun a ha b hb => ?_
    have ha := beq_iff_eq.mp (List.mem_filter.mp ha).2
    have hb := beq_iff_eq.mp (List.mem_filter.mp hb).2
    exact (ha.trans hb.symm).le
  have hsub : (withPriority rules p).Sublist (byPriority rules) := by
    rw [byPriority_eq]
    exact List.sublist_insertionSort hsame List.filter_sublist
  have hfilter := hsub.filter fun rule => rule.priority == p
  rw [withPriority, List.filter_filter] at hfilter
  simp only [Bool.and_self] at hfilter
  -- Both lists have the same members, so that the one that is part of the other is all of it.
  have hperm : (byPriority rules).Perm rules := Rank.perm_sort _ rules
  exact (hfilter.eq_of_length (hperm.filter _).length_eq.symm).symm

/-- Sorted rules do not decrease in priority. -/
theorem pairwise_byPriority (rules : List CommandRule) :
    (byPriority rules).Pairwise fun a b => a.priority ≤ b.priority := by
  have htotal : Std.Total fun a b : CommandRule => a.priority ≤ b.priority :=
    ⟨fun a b => Int.le_total a.priority b.priority⟩
  have htrans : IsTrans CommandRule fun a b => a.priority ≤ b.priority :=
    ⟨fun _ _ _ => Int.le_trans⟩
  rw [byPriority_eq]
  exact List.pairwise_insertionSort _ rules

/-- What is published of some rules: in strict order of the priorities, of each one the first. -/
structure Publishes (rules published : List CommandRule) (clashes : List PriorityClash) : Prop where
  /-- The priorities increase strictly. -/
  increasing : published.Pairwise fun a b => a.priority < b.priority
  /-- Of each priority, the first rule is published. -/
  first : ∀ p, withPriority published p = (withPriority rules p).take 1
  /-- Every other rule of a priority clashes once. -/
  others : ∀ p, (clashes.map (·.other)).filter (fun rule => rule.priority == p) =
    (withPriority rules p).tail
  /-- A rule clashes with the one that is published, and their priority can be shown. -/
  clash : ∀ c ∈ clashes, c.first ∈ published ∧ c.first.priority = c.other.priority ∧
    Number.writeInt c.other.priority = .ok c.shown

/-- What is kept of sorted rules is what is published. -/
theorem publishes_of_keeps {rules kept : List CommandRule} {clashes : List PriorityClash}
    (h : Keeps (byPriority rules) kept clashes) : Publishes rules kept clashes where
  increasing := by
    have hsorted := (pairwise_byPriority rules).sublist h.sublist
    exact hsorted.imp₂ (fun a b hle hne => lt_of_le_of_ne hle hne) h.apart
  first p := by rw [h.first, withPriority_byPriority]
  others p := by rw [h.others, withPriority_byPriority]
  clash := h.clash

/-- Notes on defects are the only thing that notes add. -/
theorem foldl_add_defect (s : RuleStore) (ds : List RuleDefect) :
    (ds.map Addition.defect).foldl RuleStore.add s = { s with defects := s.defects ++ ds } := by
  induction ds generalizing s with
  | nil => simp
  | cons d r ih =>
    rw [List.map_cons, List.foldl_cons, ih]
    simp [RuleStore.add]

/-- Publishing takes the first rule of each priority and notes the others, unless a priority that
occurs twice cannot be shown. Nothing else changes. -/
theorem publish_cases (s : RuleStore) :
    (∃ published clashes, Publishes s.pending.commands published clashes ∧
      (∀ f, ¬StopsOrder s.pending.commands f) ∧
      publish.run.run s = (.ok (),
        { s with
          tables := { s.pending with commands := published }
          defects := s.defects ++ clashes.map PriorityClash.note })) ∨
    ∃ f s', StopsOrder s.pending.commands f ∧ publish.run.run s = (.error f, s') := by
  have hstops (f : Fault) :
      StopsOrder (byPriority s.pending.commands) f ↔ StopsOrder s.pending.commands f := by
    simp only [StopsOrder, withPriority_byPriority]
  obtain ⟨outcome, added, hy, hend⟩ :=
    reads_distinct (show Keeps [] [].reverse [] from keeps_nil) (byPriority s.pending.commands)
  -- The rules are sorted first, which keeps those with one priority in their order.
  have hrun : publish.run.run s = ((distinct (byPriority s.pending.commands) [] >>= fun commands =>
      modify fun s => { s with tables := { s.pending with commands } }).run.run s) := rfl
  rw [hrun, run_bind, hy s]
  cases hend with
  | fault h => exact .inr ⟨_, _, (hstops _).mp h, rfl⟩
  | @value published _ hs h =>
    obtain ⟨clashes, hkeeps, rfl⟩ := h
    refine .inl ⟨published, clashes, publishes_of_keeps hkeeps,
      fun f h => hs f ((hstops f).mpr h), ?_⟩
    have hnotes : (clashes.map fun c => Addition.defect c.note) =
        (clashes.map PriorityClash.note).map Addition.defect := by
      rw [List.map_map]
      rfl
    rw [hnotes, foldl_add_defect]
    rfl

end RuleStore.Loading

end SurfaceAudit
