import Mathlib.Algebra.Order.BigOperators.Group.List
import SurfaceAudit.Proofs.PlainPaths

/-!
# Where a path leads, told by a relation

A step up goes back, a name goes down, and a link goes on where its target leads
(`Node.ResolvesIn`). No links of a tree form a circle if each of them leads somewhere
(`Node.HasNoCircles`), and then each path does (`Node.HasNoCircles.exists_resolves`). The plain form
of a path is the place where the relation says it leads (`Disk.plainNames_of_resolves`): a link is
never met while it is being followed, since it would lead there through fewer links than it needs,
and the steps of the links that were not met yet bound the steps that are left (`Disk.unmet`).
-/

namespace SurfaceAudit

namespace Node

/-- The place from which a link in a directory leads on. -/
def linkStart (here : List Text) (target : Text) : List Text :=
  if Path.isAbsolute target then [] else here

/-- Names lead from a place to another one, through links that are nested to a depth at most. -/
inductive ResolvesIn (root : Node) : Nat → List Text → List Text → List Text → Prop where
  /-- No name is left. -/
  | done (depth : Nat) (here : List Text) : ResolvesIn root depth here [] here
  /-- A step up goes back to the directory, and stays at the root. -/
  | up {depth : Nat} {here r place : List Text} (h : ResolvesIn root depth here.dropLast r place) :
    ResolvesIn root depth here (Path.up :: r) place
  /-- A name goes down, whether there is something or not, unless there is a link. -/
  | down {depth : Nat} {here r place : List Text} {name : Text} (hup : name ≠ Path.up)
    (hlink : ∀ target, root.at? (here ++ [name]) ≠ some (.link target))
    (h : ResolvesIn root depth (here ++ [name]) r place) :
    ResolvesIn root depth here (name :: r) place
  /-- A link goes on where its target leads from the directory, or from the root. -/
  | link {depth : Nat} {here r reached place : List Text} {name target : Text}
    (hup : name ≠ Path.up) (hlink : root.at? (here ++ [name]) = some (.link target))
    (hlead : ResolvesIn root depth (linkStart here target) (Path.names target) reached)
    (h : ResolvesIn root (depth + 1) reached r place) :
    ResolvesIn root (depth + 1) here (name :: r) place

/-- Names lead from a place to another one. -/
def Resolves (root : Node) (here names place : List Text) : Prop :=
  ∃ depth, root.ResolvesIn depth here names place

/-- No links of the tree form a circle: each of them leads somewhere. -/
def HasNoCircles (root : Node) : Prop :=
  ∀ here name target, root.at? (here ++ [name]) = some (.link target) →
    ∃ place, root.Resolves (linkStart here target) (Path.names target) place

variable {root : Node} {here names place place' : List Text} {n m : Nat}

/-- Names lead to one place only. -/
theorem ResolvesIn.unique (h : root.ResolvesIn n here names place)
    (h' : root.ResolvesIn m here names place') : place = place' := by
  -- The next name says which rule applies, and what is there says whether it is the one for links.
  induction h generalizing m place' with
  | done depth here =>
    cases h'
    rfl
  | up _ ih =>
    cases h' with
    | up h' => exact ih h'
    | down hup => exact absurd rfl hup
    | link hup => exact absurd rfl hup
  | down hup hlink _ ih =>
    cases h' with
    | up => exact absurd rfl hup
    | down _ _ h' => exact ih h'
    | link _ hl => exact absurd hl (hlink _)
  | link hup hlink _ _ ihlead ih =>
    cases h' with
    | up => exact absurd rfl hup
    | down _ hl => exact absurd hlink (hl _)
    | link _ hl hlead' h' =>
      cases hlink.symm.trans hl
      cases ihlead hlead'
      exact ih h'

/-- Names lead to one place only. -/
theorem Resolves.unique (h : root.Resolves here names place)
    (h' : root.Resolves here names place') : place = place' := by
  obtain ⟨n, h⟩ := h
  obtain ⟨m, h'⟩ := h'
  exact h.unique h'

/-- Links may be nested deeper. -/
theorem ResolvesIn.mono (h : root.ResolvesIn n here names place) (hle : n ≤ m) :
    root.ResolvesIn m here names place := by
  induction h generalizing m with
  | done depth here => exact .done m here
  | up _ ih => exact .up (ih hle)
  | down hup hlink _ ih => exact .down hup hlink (ih hle)
  | link hup hlink _ _ ihlead ih =>
    obtain ⟨m, rfl⟩ := Nat.exists_eq_add_one_of_ne_zero (Nat.ne_zero_of_lt hle)
    exact .link hup hlink (ihlead (Nat.le_of_succ_le_succ hle)) (ih hle)

/-- Names lead somewhere if no links form a circle. -/
theorem HasNoCircles.exists_resolves (h : root.HasNoCircles) (here names : List Text) :
    ∃ place, root.Resolves here names place := by
  induction names generalizing here with
  | nil => exact ⟨here, 0, .done 0 here⟩
  | cons name r ih =>
    by_cases hup : name = Path.up
    · obtain ⟨place, n, hplace⟩ := ih here.dropLast
      exact ⟨place, n, hup ▸ .up hplace⟩
    by_cases hl : ∃ target, root.at? (here ++ [name]) = some (.link target)
    · obtain ⟨target, hl⟩ := hl
      obtain ⟨reached, n, hreached⟩ := h here name target hl
      obtain ⟨place, m, hplace⟩ := ih reached
      -- The greater depth does for what the link leads to and for what follows.
      have hlead := hreached.mono (Nat.le_max_left n m)
      have hrest := hplace.mono ((Nat.le_max_right n m).trans (Nat.le_succ _))
      exact ⟨place, _, .link hup hl hlead hrest⟩
    · obtain ⟨place, n, hplace⟩ := ih (here ++ [name])
      exact ⟨place, n, .down hup (not_exists.mp hl) hplace⟩

/-- A property of names that holds on the way, and of the names in the targets of links, holds of
the names of the place that is reached. -/
theorem ResolvesIn.forall_mem {good : Text → Prop}
    (hlinks : ∀ q target, root.at? q = some (.link target) → ∀ name ∈ Path.names target, good name)
    (h : root.ResolvesIn n here names place) (hhere : ∀ name ∈ here, good name)
    (hnames : ∀ name ∈ names, good name) : ∀ name ∈ place, good name := by
  induction h with
  | done depth here => exact hhere
  | up _ ih =>
    have habove : ∀ name ∈ List.dropLast _, good name := fun name hn =>
      hhere name (List.dropLast_subset _ hn)
    exact ih habove (List.forall_mem_cons.mp hnames).2
  | down _ _ _ ih =>
    obtain ⟨hname, hr⟩ := List.forall_mem_cons.mp hnames
    exact ih (List.forall_mem_append.mpr ⟨hhere, List.forall_mem_singleton.mpr hname⟩) hr
  | @link depth here r reached place name target _ hlink _ _ ihlead ih =>
    -- A link starts at the root or where it is, and so with names that have the property.
    have hstart : ∀ name ∈ linkStart here target, good name := by
      unfold linkStart
      split
      · exact fun name hn => absurd hn List.not_mem_nil
      · exact hhere
    exact ih (ihlead hstart (hlinks _ _ hlink)) (List.forall_mem_cons.mp hnames).2

end Node

namespace Disk

open Node

/-- The links of a tree that is at a place, by their places. -/
def linksFrom (here : List Text) : Node → List (List Text × Text)
  | .file _ => []
  | .link target => [(here, target)]
  | .directory es => go here es
where
  /-- `linksFrom` for all entries. -/
  go (here : List Text) : List (Text × Node) → List (List Text × Text)
    | [] => []
    | e :: r => linksFrom (here ++ [e.1]) e.2 ++ go here r

/-- The number of steps that a link can add to a path. -/
def stepsOf (l : List Text × Text) : Nat := (Path.names l.2).length + 1

mutual

/-- The steps that the links of a tree can add are those of each. -/
theorem sum_stepsOf_linksFrom (here : List Text) :
    ∀ n : Node, ((linksFrom here n).map stepsOf).sum = linkSteps n
  | .file _ => rfl
  | .link _ => by simp [linksFrom, linkSteps, stepsOf]
  | .directory es => sum_stepsOf_go here es

/-- `sum_stepsOf_linksFrom` for all entries. -/
theorem sum_stepsOf_go (here : List Text) :
    ∀ es : List (Text × Node), ((linksFrom.go here es).map stepsOf).sum = linkSteps.go es
  | [] => rfl
  | (name, n) :: r => by
    rw [linksFrom.go, List.map_append, List.sum_append, sum_stepsOf_linksFrom, sum_stepsOf_go,
      linkSteps.go]

end

/-- The links of an entry are among those of the directory. -/
theorem linksFrom_subset_go {here : List Text} {e : Text × Node} {es : List (Text × Node)}
    (he : e ∈ es) : linksFrom (here ++ [e.1]) e.2 ⊆ linksFrom.go here es := by
  induction es with
  | nil => exact absurd he List.not_mem_nil
  | cons f r ih =>
    rw [linksFrom.go]
    rcases List.mem_cons.mp he with rfl | he
    · exact List.subset_append_left _ _
    · exact List.Subset.trans (ih he) (List.subset_append_right _ _)

/-- A link that is some names down in a tree is one of its links. -/
theorem mem_linksFrom {n : Node} {here q : List Text} {target : Text}
    (h : n.at? q = some (.link target)) : (here ++ q, target) ∈ linksFrom here n := by
  induction q generalizing n here with
  | nil =>
    cases h
    simp [linksFrom]
  | cons name r ih =>
    obtain ⟨es, k, rfl, hk, hr⟩ := exists_directory_of_at? h
    have hin : (here ++ [name] ++ r, target) ∈ linksFrom (here ++ [name]) k := ih hr
    rw [List.append_assoc, List.singleton_append] at hin
    exact linksFrom_subset_go (mem_entries hk) hin

/-- No links form a circle if each of those that the tree has leads somewhere. -/
theorem hasNoCircles_of_linksFrom {root : Node} (h : ∀ l ∈ linksFrom [] root,
    ∃ place, root.Resolves (linkStart l.1.dropLast l.2) (Path.names l.2) place) :
    root.HasNoCircles := by
  intro here name target hl
  have hplace := h _ (mem_linksFrom hl)
  rwa [List.nil_append, List.dropLast_concat] at hplace

/-- What is known of a link: nothing if it was not met yet, and if it was, where it leads, or that
it is being followed. -/
def stateOf (links : Links) (place : List Text) : Option (Option (List Text)) :=
  (links.find? (·.1 == place)).map (·.2)

/-- Of the place that was met last, the new state is known; of the others, what was known before. -/
theorem stateOf_cons (links : Links) (place place' : List Text) (state : Option (List Text)) :
    stateOf ((place, state) :: links) place' =
      if place = place' then some state else stateOf links place' := by
  unfold stateOf
  rw [List.find?_cons]
  by_cases h : place = place'
  · rw [if_pos h, h, BEq.rfl]
    rfl
  · rw [if_neg h, beq_eq_false_iff_ne.mpr h]

/-- The steps that links can add to a path that were not met yet. -/
def unmet (root : Node) (links : Links) : Nat :=
  ((linksFrom [] root).map fun l => if stateOf links l.1 = none then stepsOf l else 0).sum

/-- At first no link was met. -/
theorem unmet_nil (root : Node) : unmet root [] = linkSteps root :=
  sum_stepsOf_linksFrom [] root

/-- Each link that was met stays met. -/
def Keeps (links links' : Links) : Prop :=
  ∀ place, stateOf links place ≠ none → stateOf links' place ≠ none

/-- A link that is met keeps the others. -/
theorem keeps_cons (links : Links) (place : List Text) (state : Option (List Text)) :
    Keeps links ((place, state) :: links) := by
  intro q hq
  rw [stateOf_cons]
  split
  · simp
  · exact hq

section Unmet

variable {root : Node} {links links' : Links}

/-- The steps of a link that are left become fewer, if links stay met. -/
theorem steps_le (h : Keeps links links') (l : List Text × Text) :
    (if stateOf links' l.1 = none then stepsOf l else 0) ≤
      if stateOf links l.1 = none then stepsOf l else 0 := by
  by_cases hl : stateOf links l.1 = none
  · rw [if_pos hl]
    split
    · exact Nat.le_refl _
    · exact Nat.zero_le _
  · rw [if_neg hl, if_neg (h l.1 hl)]

/-- If links stay met, no more steps are left. -/
theorem unmet_le (h : Keeps links links') : unmet root links' ≤ unmet root links :=
  List.sum_le_sum fun l _ => steps_le h l

/-- If a link is met that was not met before, its steps are not left. -/
theorem unmet_add_le {place : List Text} {target : Text}
    (hl : root.at? place = some (.link target)) (hnew : stateOf links place = none)
    (state : Option (List Text)) :
    unmet root ((place, state) :: links) + stepsOf (place, target) ≤ unmet root links := by
  have hmem : ([] ++ place, target) ∈ linksFrom [] root := mem_linksFrom hl
  rw [List.nil_append] at hmem
  obtain ⟨before, after, hsplit⟩ := List.append_of_mem hmem
  have hmet : stateOf ((place, state) :: links) place ≠ none := by
    rw [stateOf_cons, if_pos rfl]
    simp
  -- The link stands once in the list of all links; the others count at most as they did.
  have hle (ls : List (List Text × Text)) :
      (ls.map fun l => if stateOf ((place, state) :: links) l.1 = none then stepsOf l else 0).sum ≤
        (ls.map fun l => if stateOf links l.1 = none then stepsOf l else 0).sum :=
    List.sum_le_sum fun l _ => steps_le (keeps_cons links place state) l
  have hbefore := hle before
  have hafter := hle after
  unfold unmet
  rw [hsplit]
  simp only [List.map_append, List.map_cons, List.sum_append, List.sum_cons, if_neg hmet,
    if_pos hnew]
  omega

end Unmet

/-- A link leads to a place, through further links that are nested to a depth at most. -/
def LeadsIn (root : Node) (depth : Nat) (link place : List Text) : Prop :=
  ∃ target, root.at? link = some (.link target) ∧
    root.ResolvesIn depth (linkStart link.dropLast target) (Path.names target) place

/-- What is known of links is right, and none of those that are being followed leads anywhere
through less than a depth. -/
structure Tells (root : Node) (depth : Nat) (links : Links) : Prop where
  /-- A link that was followed leads where it is known to lead. -/
  known : ∀ link place, stateOf links link = some (some place) → ∃ n, LeadsIn root n link place
  /-- A link that is being followed needs the depth. -/
  deep : ∀ link, stateOf links link = some none → ∀ n < depth, ∀ place, ¬LeadsIn root n link place

section Following

variable {root : Node} {depth : Nat} {links : Links} {here r : List Text} {name target : Text}

/-- Of the links after one that is known, only those are being followed that were before. -/
theorem stateOf_of_cons_some {link link' place : List Text} {state : Option (List Text)}
    {links' : Links} (hopen : ∀ l, stateOf links' l = some none →
      stateOf ((link, state) :: links) l = some none)
    (h : stateOf ((link, some place) :: links') link' = some none) :
    stateOf links link' = some none := by
  rw [stateOf_cons] at h
  split at h
  · cases h
  · rename_i hne
    have hstate := hopen link' h
    rwa [stateOf_cons, if_neg hne] at hstate

/-- Where a link leads is known once it was followed. -/
theorem Tells.followed (hlinks : Tells root depth links) {link place : List Text} {n : Nat}
    {links' : Links} (h : Tells root n links') (hopen : ∀ l, stateOf links' l = some none →
      stateOf ((link, none) :: links) l = some none) (hlead : LeadsIn root n link place) :
    Tells root depth ((link, some place) :: links') where
  known link' place' hstate := by
    rw [stateOf_cons] at hstate
    split at hstate
    · rename_i heq
      cases hstate
      exact ⟨n, heq ▸ hlead⟩
    · exact h.known link' place' hstate
  deep link' hstate := hlinks.deep link' (stateOf_of_cons_some hopen hstate)

/-- A link that needs a depth may be followed while others are that need at least as much. -/
theorem Tells.cons_none (h : Tells root depth links) {link : List Text} {n : Nat} (hle : n ≤ depth)
    (hneeds : ∀ k < n, ∀ place, ¬LeadsIn root k link place) :
    Tells root n ((link, none) :: links) where
  known link' place' hstate := by
    rw [stateOf_cons] at hstate
    split at hstate
    · cases hstate
    · exact h.known link' place' hstate
  deep link' hstate := by
    rw [stateOf_cons] at hstate
    split at hstate
    · rename_i heq
      exact heq ▸ hneeds
    · exact fun k hk => h.deep link' hstate k (hk.trans_le hle)

/-- A link that was not met before is followed, and then the names after it are made plain. -/
theorem plainFrom_cons_of_link (bound : Nat) (hup : name ≠ Path.up)
    (hlink : root.at? (here ++ [name]) = some (.link target)) :
    plainFrom root (bound + 1) here (name :: r) links =
      match stateOf links (here ++ [name]) with
      | some (some known) => plainFrom root bound known r links
      | some none => (here ++ [name] ++ r, false, links)
      | none =>
        match plainFrom root bound (linkStart here target) (Path.names target)
          ((here ++ [name], none) :: links) with
        | (reached, true, links) =>
          plainFrom root bound reached r ((here ++ [name], some reached) :: links)
        | (reached, false, links) => (reached ++ r, false, links) := by
  rw [plainFrom, if_neg (by simpa using hup)]
  simp only [hlink]
  rfl

/-- A link that leads to a place needs some depth at least, and leads there through that depth. -/
theorem LeadsIn.exists_least {link place : List Text} (h : LeadsIn root depth link place) :
    ∃ n ≤ depth, LeadsIn root n link place ∧ ∀ k < n, ∀ q, ¬LeadsIn root k link q := by
  classical
  have hsome : ∃ n, ∃ q, LeadsIn root n link q := ⟨depth, place, h⟩
  obtain ⟨target, hl, hplace⟩ := id h
  obtain ⟨q, target', hl', hleast⟩ := Nat.find_spec hsome
  cases hl.symm.trans hl'
  cases hleast.unique hplace
  exact ⟨Nat.find hsome, Nat.find_min' hsome ⟨place, h⟩, ⟨target, hl, hleast⟩,
    fun k hk q hq => Nat.find_min hsome hk ⟨q, hq⟩⟩

/-- What making a path plain gives if its names lead somewhere: the place, and links that are known
as well as before. No other links are being followed than before. -/
def GoesWell (root : Node) (depth : Nat) (links : Links) (place : List Text)
    (outcome : List Text × Bool × Links) : Prop :=
  ∃ links', outcome = (place, true, links') ∧ Keeps links links' ∧ Tells root depth links' ∧
    ∀ link, stateOf links' link = some none → stateOf links link = some none

/-- Names that lead somewhere through links of a depth are made plain to that place, if no link is
being followed that needs less, and if the bound is above the steps that can be left. -/
theorem goesWell_plainFrom {names place : List Text} {bound : Nat}
    (h : root.ResolvesIn depth here names place) (hlinks : Tells root depth links)
    (hbound : names.length + unmet root links < bound) :
    GoesWell root depth links place (plainFrom root bound here names links) := by
  -- The outer induction is on the depth, for what links lead to, and the inner one on the names.
  induction depth using Nat.strong_induction_on generalizing here names place bound links with
  | _ depth ihdepth =>
  induction names generalizing here bound links with
  | nil =>
    obtain ⟨bound, rfl⟩ := Nat.exists_eq_add_one_of_ne_zero (Nat.ne_zero_of_lt hbound)
    cases h
    exact ⟨links, rfl, fun _ h => h, hlinks, fun _ h => h⟩
  | cons name r ih =>
    obtain ⟨bound, rfl⟩ := Nat.exists_eq_add_one_of_ne_zero (Nat.ne_zero_of_lt hbound)
    rw [List.length_cons] at hbound
    have hrest {links' : Links} (hkeeps : Keeps links links') :
        r.length + unmet root links' < bound := by
      have hle : unmet root links' ≤ unmet root links := unmet_le hkeeps
      omega
    cases h with
    | up h =>
      rw [plainFrom, if_pos (by simp)]
      exact ih h hlinks (hrest fun _ h => h)
    | down hup hl h =>
      rw [plainFrom_cons_of_ne_link hup hl]
      exact ih h hlinks (hrest fun _ h => h)
    | @link depth _ _ reached _ _ target hup hl hlead h =>
      have hleads : LeadsIn root depth (here ++ [name]) reached :=
        ⟨target, hl, by rwa [List.dropLast_concat]⟩
      rw [plainFrom_cons_of_link bound hup hl]
      cases hstate : stateOf links (here ++ [name]) with
      | some state =>
        cases state with
        | some known =>
          -- The link was followed before, and leads where it led.
          obtain ⟨n, target', hl', hknown⟩ := hlinks.known _ _ hstate
          cases hl.symm.trans hl'
          rw [List.dropLast_concat] at hknown
          cases hknown.unique hlead
          exact ih h hlinks (hrest fun _ h => h)
        | none => exact absurd hleads (hlinks.deep _ hstate depth (Nat.lt_succ_self depth) reached)
      | none =>
        -- The link is followed through the least depth that it needs, which keeps the others apart.
        obtain ⟨n, hle, ⟨target', hl', hres⟩, hneeds⟩ := hleads.exists_least
        cases hl.symm.trans hl'
        rw [List.dropLast_concat] at hres
        have hbound : (Path.names target).length + unmet root ((here ++ [name], none) :: links) <
            bound := by
          have hsteps := unmet_add_le hl hstate none
          dsimp only [stepsOf] at hsteps
          omega
        obtain ⟨links₁, hplain, hkeeps, htells, hopen⟩ := ihdepth n (Nat.lt_succ_of_le hle) hres
          (hlinks.cons_none (hle.trans (Nat.le_succ depth)) hneeds) hbound
        have hkept : Keeps links ((here ++ [name], some reached) :: links₁) := fun l hl =>
          keeps_cons links₁ _ _ l (hkeeps l (keeps_cons links _ _ l hl))
        obtain ⟨links₂, hrun, hkeeps₂, htells₂, hopen₂⟩ := ih h
          (hlinks.followed htells hopen ⟨target, hl, by rwa [List.dropLast_concat]⟩) (hrest hkept)
        rw [hplain]
        exact ⟨links₂, hrun, fun l hl => hkeeps₂ l (hkept l hl), htells₂, fun l hl =>
          stateOf_of_cons_some hopen (hopen₂ l hl)⟩

end Following

variable {d : Disk} {path : Text} {place : List Text}

/-- No link was met, so that there is nothing to be known. -/
theorem tells_nil (root : Node) (depth : Nat) : Tells root depth [] where
  known _ _ h := by cases h
  deep _ h := by cases h

/-- Making the names of a path plain leads to the place where they lead, without a circle. -/
theorem exists_plainFrom_of_resolves
    (h : d.root.Resolves (d.startOf path) (Path.names path) place) :
    ∃ links, plainFrom d.root (linkSteps d.root + (Path.names path).length + 1) (d.startOf path)
      (Path.names path) [] = (place, true, links) := by
  obtain ⟨depth, h⟩ := h
  have hbound : (Path.names path).length + unmet d.root [] <
      linkSteps d.root + (Path.names path).length + 1 := by
    rw [unmet_nil]
    omega
  obtain ⟨links, hplain, -⟩ := goesWell_plainFrom h (tells_nil d.root depth) hbound
  exact ⟨links, hplain⟩

/-- No circle of links is met on a path that leads somewhere. -/
theorem not_meetsCircle_of_resolves
    (h : d.root.Resolves (d.startOf path) (Path.names path) place) : ¬d.MeetsCircle path := by
  obtain ⟨links, hplain⟩ := exists_plainFrom_of_resolves h
  unfold MeetsCircle
  rw [hplain]
  simp

/-- The plain form of a path is the place where it leads. -/
theorem plainNames_of_resolves (hname : nameFault? (Path.tidy path) = none)
    (h : d.root.Resolves (d.startOf path) (Path.names path) place) :
    d.plainNames path = .ok place := by
  obtain ⟨links, hplain⟩ := exists_plainFrom_of_resolves h
  unfold plainNames
  rw [hname]
  dsimp only
  rw [hplain]

end Disk

end SurfaceAudit
