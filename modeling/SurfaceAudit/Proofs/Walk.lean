import SurfaceAudit.Plugin.Listing
import SurfaceAudit.Proofs.Lookup
import SurfaceAudit.Rank
import Mathlib.Data.List.Flatten
import Mathlib.Data.List.Sort

/-!
# Walks through a plugin that gains a file

A walk finds the files of each directory and then those of the directories in it, so a new file
comes between the others and changes none of them (`Listing.files_walk_sublist`). Links count only
for the notes. Putting the paths in order keeps that (`Text.sort_sublist`), and so the files of a
plugin are still listed, in the same order (`Plugin.pathsIn_sublist`).
-/

namespace SurfaceAudit

/-- Code points with the same number are the same. -/
theorem Point.val_injective {a b : Point} (h : a.val = b.val) : a = b := by
  have hapart (c : Char) (n : Fin 0x800) : c.toNat ≠ 0xD800 + n := by
    have hvalid : c.toNat < 0xD800 ∨ 0xDFFF < c.toNat ∧ c.toNat < 0x110000 := c.valid
    have hn := n.isLt
    omega
  cases a with
  | scalar c =>
    cases b with
    | scalar c' => exact congrArg _ (Char.toNat_inj.mp h)
    | surrogate n => exact absurd h (hapart c n)
  | surrogate n =>
    cases b with
    | scalar c => exact absurd h.symm (hapart c n)
    | surrogate m => exact congrArg _ (Fin.ext (Nat.add_left_cancel h))

namespace Text

/-- A text comes before another or after it. -/
theorem le_total (s t : Text) : le s t = true ∨ le t s = true := by
  induction s generalizing t with
  | nil => exact .inl rfl
  | cons a s ih =>
    cases t with
    | nil => exact .inr rfl
    | cons b t =>
      simp only [le, Bool.or_eq_true, Bool.and_eq_true, decide_eq_true_eq, beq_iff_eq]
      rcases Nat.lt_trichotomy a.val b.val with hlt | heq | hgt
      · exact .inl (.inl hlt)
      · rcases ih t with h | h
        · exact .inl (.inr ⟨heq, h⟩)
        · exact .inr (.inr ⟨heq.symm, h⟩)
      · exact .inr (.inl hgt)

/-- A text before one that comes before another comes before that. -/
theorem le_trans {s t u : Text} (hst : le s t = true) (htu : le t u = true) : le s u = true := by
  -- The first code points in which they differ decide, and these may stand at two places.
  induction s generalizing t u with
  | nil => rfl
  | cons a s ih =>
    cases t with
    | nil => simp [le] at hst
    | cons b t =>
      cases u with
      | nil => simp [le] at htu
      | cons c u =>
        simp only [le, Bool.or_eq_true, Bool.and_eq_true, decide_eq_true_eq, beq_iff_eq]
          at hst htu ⊢
        rcases hst with hst | ⟨hab, hst⟩
        · rcases htu with htu | ⟨hbc, -⟩
          · exact .inl (Nat.lt_trans hst htu)
          · exact .inl (hbc ▸ hst)
        · rcases htu with htu | ⟨hbc, htu⟩
          · exact .inl (hab ▸ htu)
          · exact .inr ⟨hab.trans hbc, ih hst htu⟩

/-- Texts that come before one another are the same. -/
theorem le_antisymm {s t : Text} (hst : le s t = true) (hts : le t s = true) : s = t := by
  induction s generalizing t with
  | nil =>
    cases t with
    | nil => rfl
    | cons b t => cases hts
  | cons a s ih =>
    cases t with
    | nil => cases hst
    | cons b t =>
      simp only [le, Bool.or_eq_true, Bool.and_eq_true, decide_eq_true_eq, beq_iff_eq] at hst hts
      rcases hst with hab | ⟨hab, hst⟩
      · omega
      · rcases hts with hba | ⟨-, hts⟩
        · omega
        · rw [Point.val_injective hab, ih hst hts]

/-- The order of texts, as a relation. -/
abbrev Le (s t : Text) : Prop := le s t = true

instance : Std.Total Le := ⟨le_total⟩

instance : IsTrans Text Le := ⟨fun _ _ _ => le_trans⟩

/-- Putting a text into its place is the insertion of the library. -/
theorem insert_eq (t : Text) (ts : List Text) : insert t ts = ts.orderedInsert Le t := by
  induction ts with
  | nil => rfl
  | cons u r ih =>
    rw [insert, List.orderedInsert_cons, ih]

/-- Putting texts in order is the sorting of the library. -/
theorem sort_eq (ts : List Text) : sort ts = ts.insertionSort Le := by
  unfold sort List.insertionSort
  congr 1
  funext t us
  exact insert_eq t us

/-- Texts that are among others, in their order, are so after both are put in order. -/
theorem sort_sublist {ts us : List Text} (h : ts.Sublist us) : (sort ts).Sublist (sort us) := by
  rw [sort_eq, sort_eq]
  induction h with
  | slnil => exact List.Sublist.refl _
  | cons u _ ih =>
    rw [List.insertionSort_cons]
    exact ih.trans (List.sublist_orderedInsert u _)
  | cons_cons u _ ih =>
    rw [List.insertionSort_cons, List.insertionSort_cons]
    exact ih.orderedInsert_sublist u (List.pairwise_insertionSort Le _)

end Text

namespace Rank

variable {α : Type} (le : α → α → Bool)

/-- Putting an element into its place is the insertion of the library. -/
theorem insert_eq (x : α) (xs : List α) :
    insert le x xs = xs.orderedInsert (fun a b => le a b = true) x := by
  induction xs with
  | nil => rfl
  | cons y r ih =>
    rw [List.orderedInsert_cons, insert, ih]

/-- Putting elements in order by rank is the sorting of the library. -/
theorem sort_eq (xs : List α) : sort le xs = xs.insertionSort fun a b => le a b = true := by
  induction xs with
  | nil => rfl
  | cons x r ih =>
    rw [List.insertionSort_cons, ← ih, ← insert_eq]
    rfl

/-- Putting elements in order neither adds one nor loses one. -/
theorem perm_sort (xs : List α) : (sort le xs).Perm xs := by
  rw [sort_eq]
  exact List.perm_insertionSort _ xs

end Rank

namespace Listing

/-- The files of some listings one after the other. -/
theorem files_foldr (ls : List Listing) : (ls.foldr append empty).files = ls.flatMap (·.files) := by
  induction ls with
  | nil => rfl
  | cons l r ih =>
    rw [List.foldr_cons, List.flatMap_cons, ← ih]
    rfl

/-- The path of an entry that is a file. -/
def ownFiles (here : List Text) (e : Text × Node) : List Text :=
  if e.2.isFile then [pathIn here e.1] else []

/-- What an entry is does not depend on the guide, but for the notes. -/
theorem files_leaf (g : Guide) (here : List Text) (e : Text × Node) :
    (leaf g here e).files = ownFiles here e := by
  unfold leaf ownFiles
  split
  · rename_i h
    rw [h]
    rfl
  · rename_i h
    rw [h]
    split <;> rfl
  · rename_i h
    rw [h]
    rfl

/-- The files in a directory are its own, and those in the directories that are entered. -/
theorem files_walk (g : Guide) (here : List Text) (es : List (Text × Node)) :
    (walk g here (.directory es)).files = es.flatMap (ownFiles here) ++
      es.flatMap fun e => if g.enters e.1 then (walk g (here ++ [e.1]) e.2).files else [] := by
  have hleaves : (leaves g here es).files = es.flatMap (ownFiles here) := by
    change [] ++ ((es.map (leaf g here)).foldr append empty).files = _
    rw [List.nil_append, files_foldr, List.flatMap_map]
    congr 1
    funext e
    exact files_leaf g here e
  -- The walk through the entries is a function of its own, with an induction of its own.
  have hall (rs : List (Text × Node)) : (walkAll g here rs).files =
      rs.flatMap fun e => if g.enters e.1 then (walk g (here ++ [e.1]) e.2).files else [] := by
    induction rs with
    | nil => rfl
    | cons e r ih =>
      obtain ⟨name, n⟩ := e
      rw [walkAll, List.flatMap_cons, ← ih]
      change (if g.enters name = true then walk g (here ++ [name]) n else empty).files ++ _ = _
      split <;> rfl
  rw [walk, ← hleaves, ← hall]
  rfl

mutual

/-- Which files a walk finds depends on the guide only for what is passed over. -/
theorem files_walk_congr {g g' : Guide} (h : g.isSkipped = g'.isSkipped) (here : List Text) :
    ∀ n : Node, (walk g here n).files = (walk g' here n).files
  | .file _ => rfl
  | .link _ => rfl
  | .directory es => by
    rw [files_walk, files_walk, inner_congr h here es]

/-- `files_walk_congr` for what is in the directories among entries. -/
theorem inner_congr {g g' : Guide} (h : g.isSkipped = g'.isSkipped) (here : List Text) :
    ∀ es : List (Text × Node),
      (es.flatMap fun e => if g.enters e.1 then (walk g (here ++ [e.1]) e.2).files else []) =
        es.flatMap fun e => if g'.enters e.1 then (walk g' (here ++ [e.1]) e.2).files else []
  | [] => rfl
  | (name, n) :: r => by
    have henters : g.enters name = g'.enters name := by rw [Guide.enters, Guide.enters, h]
    rw [List.flatMap_cons, List.flatMap_cons, inner_congr h here r, henters,
      files_walk_congr h (here ++ [name]) n]

end

variable {content : List UInt8}

/-- A walk through a tree that gains a file finds all files that it found, in their order. -/
theorem files_walk_gains (g : Guide) {place : List Text} {m m' : Node}
    (h : Node.Gains content place m m') (here : List Text) :
    (walk g here m).files.Sublist (walk g here m').files := by
  induction h generalizing here with
  | @fresh name r before after _ =>
    rw [files_walk, files_walk]
    have hinsert := (List.sublist_cons_self (name, Node.chain content r) after).append_left before
    exact (hinsert.flatMap _).append (hinsert.flatMap _)
  | @inside name r before after k k' _ hk ih =>
    -- The entry is a directory before and after, so that it is none of the files itself.
    obtain ⟨⟨ks, rfl⟩, ks', rfl⟩ := hk.exists_directory
    rw [files_walk, files_walk]
    refine List.Sublist.append ?_ ?_
    · rw [List.flatMap_append, List.flatMap_append, List.flatMap_cons, List.flatMap_cons]
      exact List.Sublist.refl _
    · rw [List.flatMap_append, List.flatMap_append, List.flatMap_cons, List.flatMap_cons]
      refine (List.Sublist.append ?_ (List.Sublist.refl _)).append_left _
      split
      · exact ih (here ++ [name])
      · exact List.Sublist.refl _

/-- A walk through a tree that may have gained a file finds all files that it found, in their order,
whatever it knows about links. -/
theorem files_walk_sublist {g g' : Guide} (hg : g.isSkipped = g'.isSkipped) {m m' : Node}
    (h : Node.Grown content m m') (here : List Text) :
    (walk g here m).files.Sublist (walk g' here m').files := by
  rw [files_walk_congr hg]
  rcases h with rfl | ⟨place, h⟩
  · exact List.Sublist.refl _
  · exact files_walk_gains g' h here

end Listing

namespace Plugin

variable {content : List UInt8} {place : List Text} {d d' : Disk}

/-- The files of a plugin that gains a file are listed as before, if its manifest stays where it
is. -/
theorem pathsIn_sublist (p : Plugin) (h : d.Gains content place d') (skipped : List Value)
    (manifest : Option Text) : (pathsIn (p.listing d skipped) manifest).Sublist
      (pathsIn (p.listing d' skipped) manifest) := by
  have hfiles : (p.listing d skipped).files.Sublist (p.listing d' skipped).files := by
    unfold listing
    cases hn : d.find? p.path with
    | none => exact List.nil_sublist _
    | some n =>
      obtain ⟨n', hn', hg⟩ := Disk.find?_grown h hn
      have hskipped : (p.guide d skipped).isSkipped = (p.guide d' skipped).isSkipped := rfl
      rw [hn']
      exact Listing.files_walk_sublist hskipped hg []
  unfold pathsIn
  exact Text.sort_sublist (hfiles.filter _)

end Plugin

end SurfaceAudit
