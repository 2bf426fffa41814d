import SurfaceAudit.Proofs.Scanners
import Mathlib.Data.List.TakeWhile

/-!
# The grammar of fenced blocks

A document is cut into lines outside of blocks and blocks, each with the line that opens it, the
lines of its body and, unless the document ends first, the line that closes it
(`Markdown.IsSegmentation`). What opens and closes a block is told by the shape of a line alone
(`Markdown.Opens`, `Markdown.Closes`). There is one way to cut a document
(`Markdown.IsSegmentation.unique`), and the lines of the bodies are those that the scanner sees
(`Markdown.blockLinesFrom_eq`), so that no other line has a say in the evidence
(`fences_follow_grammar`).
-/

namespace SurfaceAudit

namespace Markdown

/-- A text begins with a run of as many copies of a code point as there are in front. -/
theorem run_iff (a : Point) (t rest : Text) (n : Nat) :
    (t.takeWhile (· == a)).length = n ∧ t.drop n = rest ↔
      t = List.replicate n a ++ rest ∧ rest.head? ≠ some a := by
  induction t generalizing n with
  | nil =>
    constructor
    · rintro ⟨rfl, rfl⟩
      exact ⟨rfl, by simp⟩
    · rintro ⟨h, -⟩
      obtain ⟨hn, rfl⟩ := List.append_eq_nil_iff.mp h.symm
      obtain rfl : n = 0 := by simpa using hn
      exact ⟨rfl, by simp⟩
  | cons p t ih =>
    -- A run of length zero ends at the first other code point; a longer one takes it, and the
    -- induction goes on.
    by_cases hp : p = a
    · subst hp
      cases n with
      | zero =>
        refine iff_of_false (by simp) ?_
        rintro ⟨rfl, h⟩
        exact h rfl
      | succ n => simpa [List.replicate_succ] using ih n
    · have hhead : (p == a) = false := beq_eq_false_iff_ne.mpr hp
      cases n with
      | zero =>
        simp only [List.takeWhile_cons, hhead, List.drop_zero, List.replicate_zero,
          List.nil_append]
        constructor
        · rintro ⟨-, rfl⟩
          exact ⟨rfl, by simpa using hp⟩
        · rintro ⟨rfl, -⟩
          exact ⟨rfl, rfl⟩
      | succ n =>
        refine iff_of_false (by simp [hhead]) ?_
        rintro ⟨h, -⟩
        exact hp (List.cons.inj h).1

/-! ## The lines of fences -/

/-- A line has a run of marks: it is indented by three blanks at most, and the marks are backticks
or tildes, three at least and as many as there are. -/
structure HasRun (line : Text) (m : Point) (n : Nat) (rest : Text) : Prop where
  /-- What the line consists of. -/
  eq : ∃ i ≤ 3, line = List.replicate i (.scalar ' ') ++ (List.replicate n m ++ rest)
  /-- The mark. -/
  mark : m = .scalar '`' ∨ m = .scalar '~'
  /-- There are enough of them. -/
  long : 3 ≤ n
  /-- There is no further one. -/
  whole : rest.head? ≠ some m

/-- A line opens a block: it has a run of marks, and after backticks none follows anywhere. -/
def Opens (line : Text) (f : Fence) : Prop :=
  ∃ rest, HasRun line f.mark f.length rest ∧ (f.mark = .scalar '`' → .scalar '`' ∉ rest) ∧
    f.info = Text.trimLeft Point.isBlank rest

/-- A line closes the block of a fence: it has a run of the same marks, as long at least, and
nothing but blanks follows. -/
def Closes (f : Fence) (line : Text) : Prop :=
  ∃ n rest, HasRun line f.mark n rest ∧ f.length ≤ n ∧ ∀ p ∈ rest, p.isBlank = true

/-- Backticks and tildes are the marks. -/
theorem isMark_iff (p : Point) : isMark p = true ↔ p = .scalar '`' ∨ p = .scalar '~' := by
  simp [isMark]

/-- The run that is read off a line is the one that it has. -/
theorem fenceRun?_eq_some_iff {line : Text} {m : Point} {n : Nat} {rest : Text} :
    fenceRun? line = some (m, n, rest) ↔ HasRun line m n rest := by
  -- Two runs are read one after the other, the blanks of the indentation and the marks of the
  -- fence, each by `run_iff`.
  unfold fenceRun? unindent
  generalize hi : (line.takeWhile (· == Point.scalar ' ')).length = i
  dsimp only
  constructor
  · intro h
    split at h
    · cases h
    · cases h
    · rename_i mark r hline
      split at hline
      · cases hline
      · rename_i hle
        have hindent := (run_iff (.scalar ' ') line (mark :: r) i).mp ⟨hi, Option.some.inj hline⟩
        split at h
        · rename_i hmark
          obtain ⟨hmark, hlong⟩ := Bool.and_eq_true_iff.mp hmark
          cases h
          have hrun := (run_iff m (m :: r) (r.drop (r.takeWhile (· == m)).length)
            ((r.takeWhile (· == m)).length + 1)).mp ⟨by simp, rfl⟩
          exact ⟨⟨i, by omega, hindent.1.trans (congrArg (List.replicate i _ ++ ·) hrun.1)⟩,
            (isMark_iff m).mp hmark, of_decide_eq_true hlong, hrun.2⟩
        · cases h
  · rintro ⟨⟨j, hj, hline⟩, hmark, hlong, hwhole⟩
    obtain ⟨k, rfl⟩ : ∃ k, n = k + 1 := ⟨n - 1, by omega⟩
    have hindent := (run_iff (.scalar ' ') line (List.replicate (k + 1) m ++ rest) j).mpr
      ⟨hline, by rcases hmark with rfl | rfl <;> simp [List.replicate_succ]⟩
    obtain rfl : i = j := hi.symm.trans hindent.1
    rw [if_neg (by omega), hindent.2, List.replicate_succ, List.cons_append]
    have hrun := (run_iff m (List.replicate (k + 1) m ++ rest) rest (k + 1)).mpr ⟨rfl, hwhole⟩
    have hk : ((List.replicate k m ++ rest).takeWhile (· == m)).length = k := by
      simpa [List.replicate_succ] using hrun.1
    dsimp only
    rw [hk, if_pos (by simp [(isMark_iff m).mpr hmark, hlong])]
    simp

/-- The fence that is read off a line is the one that it opens. -/
theorem open?_eq_some_iff {line : Text} {f : Fence} : Fence.open? line = some f ↔ Opens line f := by
  unfold Fence.open? Opens
  constructor
  · intro h
    split at h
    · cases h
    · rename_i m n rest hrun
      split at h
      · cases h
      · rename_i hmark
        cases h
        refine ⟨rest, fenceRun?_eq_some_iff.mp hrun, ?_, rfl⟩
        rintro (rfl : m = _) hmem
        exact hmark (by simp [hmem])
  · rintro ⟨rest, hrun, hmark, hinfo⟩
    rw [fenceRun?_eq_some_iff.mpr hrun]
    dsimp only
    rw [if_neg, ← hinfo]
    simpa using hmark

/-- A line opens one block only. -/
theorem Opens.unique {line : Text} {f g : Fence} (hf : Opens line f) (hg : Opens line g) : f = g :=
  Option.some.inj ((open?_eq_some_iff.mpr hf).symm.trans (open?_eq_some_iff.mpr hg))

/-- A line opens no block if no fence is read off it. -/
theorem open?_eq_none_iff {line : Text} : Fence.open? line = none ↔ ∀ f, ¬Opens line f := by
  simp [Option.eq_none_iff_forall_ne_some, open?_eq_some_iff]

/-- A line closes a block if that is read off it. -/
theorem isClosedBy_iff {f : Fence} {line : Text} : f.isClosedBy line = true ↔ Closes f line := by
  unfold Fence.isClosedBy Closes
  constructor
  · intro h
    split at h
    · cases h
    · rename_i m n rest hrun
      simp only [Bool.and_eq_true, beq_iff_eq, decide_eq_true_eq, List.all_eq_true] at h
      obtain ⟨⟨rfl, hlong⟩, hblank⟩ := h
      exact ⟨n, rest, fenceRun?_eq_some_iff.mp hrun, hlong, hblank⟩
  · rintro ⟨n, rest, hrun, hlong, hblank⟩
    rw [fenceRun?_eq_some_iff.mpr hrun]
    simpa [hlong] using hblank

/-! ## Documents in pieces -/

/-- A piece of a document. -/
inductive Piece where
  /-- A line outside of blocks. -/
  | outside (line : Text)
  /-- A block: its fence, the line that opens it, the lines of its body and the line that closes it,
  if there is one. -/
  | block (fence : Fence) (opener : Text) (body : List Text) (closer? : Option Text)

namespace Piece

/-- The lines of a piece. -/
def lines : Piece → List Text
  | .outside line => [line]
  | .block _ opener body closer? => opener :: (body ++ closer?.toList)

/-- A line outside opens no block. The first line of a block opens it, no line of its body closes
it, and its last line, if it has one, does. -/
def IsProper : Piece → Prop
  | .outside line => ∀ f, ¬Opens line f
  | .block f opener body closer? =>
    Opens opener f ∧ (∀ line ∈ body, ¬Closes f line) ∧ ∀ line ∈ closer?, Closes f line

/-- The piece is a block that nothing closes. -/
def IsUnclosed : Piece → Prop
  | .outside _ => False
  | .block _ _ _ closer? => closer? = none

/-- The lines of the body of a piece, the first line of which has a number. -/
def bodyLines (number : Nat) : Piece → List BlockLine
  | .outside _ => []
  | .block f _ body _ => (body.zipIdx (number + 1)).map fun (line, i) => ⟨i, f, line⟩

/-- A piece in place of another: a line outside may be any line that opens no block, and the body of
a block whose lines are no commands may have as many other lines, if none of them closes it. -/
inductive Replaces : Piece → Piece → Prop
  /-- A line outside of blocks. -/
  | outside {line line' : Text} (outside : ∀ f, ¬Opens line' f) :
    Replaces (.outside line) (.outside line')
  /-- A block. -/
  | block {f : Fence} {opener : Text} {body body' : List Text} {closer? : Option Text}
    (length : body'.length = body.length) (inside : ∀ line ∈ body', ¬Closes f line)
    (same : f.isExecutable = true → body' = body) :
    Replaces (.block f opener body closer?) (.block f opener body' closer?)

end Piece

/-- Lines are cut into pieces: these are the lines, each piece is proper, and only the last one may
be a block that nothing closes. -/
structure IsSegmentation (ps : List Piece) (lines : List Text) : Prop where
  /-- The pieces consist of the lines. -/
  eq : ps.flatMap Piece.lines = lines
  /-- The pieces are proper. -/
  proper : ∀ p ∈ ps, p.IsProper
  /-- The blocks before the last piece are closed. -/
  closed : ∀ p ∈ ps.dropLast, ¬p.IsUnclosed

/-- The lines of the bodies of pieces, the first line of which has a number. -/
def bodiesFrom (number : Nat) : List Piece → List BlockLine
  | [] => []
  | p :: ps => p.bodyLines number ++ bodiesFrom (number + p.lines.length) ps

/-- Without pieces there are no lines. -/
theorem isSegmentation_nil {lines : List Text} : IsSegmentation [] lines ↔ lines = [] :=
  ⟨fun h => h.eq.symm, fun h => ⟨h.symm, by simp, by simp⟩⟩

/-- Pieces are a proper piece, which nothing follows if it is not closed, and pieces. -/
theorem isSegmentation_cons {p : Piece} {ps : List Piece} {lines : List Text} :
    IsSegmentation (p :: ps) lines ↔ ∃ rest, lines = p.lines ++ rest ∧ p.IsProper ∧
      (p.IsUnclosed → ps = []) ∧ IsSegmentation ps rest := by
  constructor
  · rintro ⟨heq, hproper, hclosed⟩
    obtain ⟨hp, hps⟩ := List.forall_mem_cons.mp hproper
    refine ⟨ps.flatMap Piece.lines, heq.symm, hp, fun hopen => ?_, rfl, hps, fun q hq => ?_⟩
    · -- That only the last piece may be unclosed is a matter of whether another one follows.
      cases ps with
      | nil => rfl
      | cons q ps => exact absurd hopen (hclosed p List.mem_cons_self)
    · cases ps with
      | nil => cases hq
      | cons r ps => exact hclosed q (List.mem_cons_of_mem _ hq)
  · rintro ⟨rest, rfl, hp, hlast, rfl, hps, hclosed⟩
    refine ⟨rfl, List.forall_mem_cons.mpr ⟨hp, hps⟩, ?_⟩
    cases ps with
    | nil => simp
    | cons q ps =>
      exact List.forall_mem_cons.mpr ⟨fun hopen => (nomatch hlast hopen), hclosed⟩

/-- What stands before the first element of a kind, that element and the rest are determined; so
they are if there is no such element, and then there is no rest. -/
theorem cut_unique {α : Type} {P : α → Prop} {body body' rest rest' : List α} {c c' : Option α}
    (hbody : ∀ x ∈ body, ¬P x) (hbody' : ∀ x ∈ body', ¬P x) (hc : ∀ x ∈ c, P x)
    (hc' : ∀ x ∈ c', P x) (hrest : c = none → rest = []) (hrest' : c' = none → rest' = [])
    (h : body ++ c.toList ++ rest = body' ++ c'.toList ++ rest') :
    body = body' ∧ c = c' ∧ rest = rest' := by
  induction body generalizing body' with
  | nil =>
    cases body' with
    | nil =>
      cases c with
      | none =>
        obtain rfl := hrest rfl
        cases c' with
        | none => exact ⟨rfl, rfl, (hrest' rfl).symm⟩
        | some x' => cases h
      | some x =>
        cases c' with
        | none =>
          obtain rfl := hrest' rfl
          cases h
        | some x' =>
          cases h
          exact ⟨rfl, rfl, rfl⟩
    | cons y body' =>
      -- The other body begins with what ends this one, or is longer than the whole.
      cases c with
      | none =>
        obtain rfl := hrest rfl
        cases h
      | some x =>
        obtain rfl : x = y := (List.cons.inj h).1
        exact absurd (hc x rfl) (hbody' x List.mem_cons_self)
  | cons y body ih =>
    cases body' with
    | nil =>
      cases c' with
      | none =>
        obtain rfl := hrest' rfl
        cases h
      | some x =>
        obtain rfl : y = x := (List.cons.inj h).1
        exact absurd (hc' y rfl) (hbody y List.mem_cons_self)
    | cons y' body' =>
      simp only [List.cons_append, List.cons.injEq] at h
      obtain ⟨rfl, h⟩ := h
      obtain ⟨rfl, hcc, hrr⟩ := ih (fun x hx => hbody x (List.mem_cons_of_mem _ hx))
        (fun x hx => hbody' x (List.mem_cons_of_mem _ hx)) h
      exact ⟨rfl, hcc, hrr⟩

/-- Lines are cut into pieces in one way. -/
theorem IsSegmentation.unique {ps qs : List Piece} {lines : List Text} (h : IsSegmentation ps lines)
    (h' : IsSegmentation qs lines) : ps = qs := by
  induction ps generalizing qs lines with
  | nil =>
    obtain rfl := isSegmentation_nil.mp h
    cases qs with
    | nil => rfl
    | cons q qs =>
      obtain ⟨rest, hlines, -⟩ := isSegmentation_cons.mp h'
      cases q <;> cases hlines
  | cons p ps ih =>
    obtain ⟨rest, rfl, hp, hlast, hrest⟩ := isSegmentation_cons.mp h
    cases qs with
    | nil =>
      have hlines := isSegmentation_nil.mp h'
      cases p <;> cases hlines
    | cons q qs =>
      obtain ⟨rest', hlines, hq, hlast', hrest'⟩ := isSegmentation_cons.mp h'
      -- The first lines tell whether the pieces are blocks, and of which fence.
      cases p with
      | outside line =>
        cases q with
        | outside line' =>
          obtain ⟨rfl, rfl⟩ := List.cons.inj hlines
          rw [ih hrest hrest']
        | block f' opener' body' closer' =>
          obtain ⟨rfl, -⟩ := List.cons.inj hlines
          exact absurd hq.1 (hp f')
      | block f opener body closer? =>
        cases q with
        | outside line' =>
          obtain ⟨rfl, -⟩ := List.cons.inj hlines
          exact absurd hp.1 (hq f)
        | block f' opener' body' closer' =>
          simp only [Piece.lines, List.cons_append, List.cons.injEq] at hlines
          obtain ⟨rfl, hlines⟩ := hlines
          obtain rfl := hp.1.unique hq.1
          have hempty {qs : List Piece} {rest : List Text} (hqs : qs = [])
              (hr : IsSegmentation qs rest) : rest = [] := by
            subst hqs
            exact isSegmentation_nil.mp hr
          obtain ⟨rfl, rfl, rfl⟩ := cut_unique hp.2.1 hq.2.1 hp.2.2 hq.2.2
            (fun hnone => hempty (hlast hnone) hrest) (fun hnone => hempty (hlast' hnone) hrest')
            hlines
          rw [ih hrest hrest']

/-- Lines can be cut into pieces. -/
theorem exists_isSegmentation (lines : List Text) : ∃ ps, IsSegmentation ps lines := by
  -- A block takes several lines at once, so the induction is on how many lines are left.
  induction hn : lines.length using Nat.strong_induction_on generalizing lines with
  | _ n ih =>
    subst hn
    cases lines with
    | nil => exact ⟨[], isSegmentation_nil.mpr rfl⟩
    | cons line r =>
      cases hopen : Fence.open? line with
      | none =>
        obtain ⟨ps, hps⟩ := ih r.length (Nat.lt_succ_self _) r rfl
        exact ⟨.outside line :: ps, isSegmentation_cons.mpr
          ⟨r, rfl, open?_eq_none_iff.mp hopen, fun h => h.elim, hps⟩⟩
      | some f =>
        have hopens := open?_eq_some_iff.mp hopen
        -- The body reaches up to the first line that closes the block, if there is one.
        have hbody : ∀ l ∈ r.takeWhile (!f.isClosedBy ·), ¬Closes f l := fun l hl hcloses => by
          simpa [isClosedBy_iff.mpr hcloses] using List.mem_takeWhile_imp hl
        have hcut := List.takeWhile_append_dropWhile (p := (!f.isClosedBy ·)) (l := r)
        generalize r.takeWhile (!f.isClosedBy ·) = body at hbody hcut
        cases hrest : r.dropWhile (!f.isClosedBy ·) with
        | nil =>
          rw [hrest, List.append_nil] at hcut
          rw [hcut] at hbody
          exact ⟨[.block f line r none], isSegmentation_cons.mpr
            ⟨[], by simp [Piece.lines], ⟨hopens, hbody, by simp⟩, fun _ => rfl,
              isSegmentation_nil.mpr rfl⟩⟩
        | cons closer r' =>
          -- What is left behind the closing line is shorter, which the induction asks for.
          have hshort : r'.length < (line :: r).length := by
            have hle := List.length_dropWhile_le (!f.isClosedBy ·) r
            rw [hrest] at hle
            simp only [List.length_cons] at hle ⊢
            omega
          have hcloses : Closes f closer := by
            have hhead := List.head?_dropWhile_not (!f.isClosedBy ·) r
            rw [hrest] at hhead
            exact isClosedBy_iff.mp (by simpa using hhead)
          obtain ⟨ps, hps⟩ := ih r'.length hshort r' rfl
          refine ⟨.block f line body (some closer) :: ps, isSegmentation_cons.mpr
            ⟨r', ?_, ⟨hopens, hbody, by simpa using hcloses⟩, fun h => (nomatch h), hps⟩⟩
          rw [← hcut, hrest]
          simp [Piece.lines]

/-- Lines of a body are seen one after the other, and leave the block open. -/
theorem blockLinesFrom_body {f : Fence} {body : List Text} (h : ∀ l ∈ body, ¬Closes f l)
    (number : Nat) (rest : List Text) : blockLinesFrom number (some f) (body ++ rest) =
      ((body.zipIdx number).map fun (line, i) => ⟨i, f, line⟩) ++
        blockLinesFrom (number + body.length) (some f) rest := by
  induction body generalizing number with
  | nil => rfl
  | cons line body ih =>
    obtain ⟨hline, hbody⟩ := List.forall_mem_cons.mp h
    have hopen : f.isClosedBy line = false :=
      Bool.eq_false_iff.mpr fun hc => hline (isClosedBy_iff.mp hc)
    rw [List.cons_append, blockLinesFrom]
    dsimp only
    rw [hopen, if_neg Bool.false_ne_true, ih hbody, List.zipIdx_cons, List.map_cons,
      List.length_cons, List.cons_append, Nat.add_right_comm number 1, Nat.add_assoc]

/-- The lines that are seen inside of blocks are those of the bodies. -/
theorem blockLinesFrom_eq {ps : List Piece} {lines : List Text} (h : IsSegmentation ps lines)
    (number : Nat) : blockLinesFrom number none lines = bodiesFrom number ps := by
  -- The pieces lead the induction: a line outside is one step of the reader, a block is a whole run
  -- of steps inside of its fence.
  induction ps generalizing lines number with
  | nil =>
    rw [isSegmentation_nil.mp h]
    rfl
  | cons p ps ih =>
    obtain ⟨rest, rfl, hp, hlast, hrest⟩ := isSegmentation_cons.mp h
    cases p with
    | outside line =>
      have hnone := open?_eq_none_iff.mpr hp
      change blockLinesFrom (number + 1) (Fence.open? line) rest = _
      rw [hnone, ih hrest]
      rfl
    | block f opener body closer? =>
      obtain ⟨hopens, hbody, hcloses⟩ := hp
      change blockLinesFrom (number + 1) (Fence.open? opener) (body ++ closer?.toList ++ rest) = _
      rw [open?_eq_some_iff.mpr hopens, List.append_assoc, blockLinesFrom_body hbody]
      unfold bodiesFrom
      refine congrArg (_ ++ ·) ?_
      cases closer? with
      | none =>
        obtain rfl := hlast rfl
        rw [isSegmentation_nil.mp hrest]
        rfl
      | some closer =>
        have hclosed := isClosedBy_iff.mpr (hcloses closer rfl)
        rw [Option.toList_some, List.singleton_append, blockLinesFrom, if_pos hclosed, ih hrest]
        congr 1
        simp only [Piece.lines, List.length_cons, List.length_append, Option.toList_some,
          List.length_nil]
        omega

/-! ## What is replaced -/

/-- A piece in place of another has as many lines. -/
theorem Piece.Replaces.length_eq {p p' : Piece} (h : p.Replaces p') :
    p'.lines.length = p.lines.length := by
  cases h with
  | outside => rfl
  | block length => simp [Piece.lines, length]

/-- Pieces in place of others cut their lines. -/
theorem IsSegmentation.replace {ps ps' : List Piece} {lines : List Text}
    (h : IsSegmentation ps lines) (hr : List.Forall₂ Piece.Replaces ps ps') :
    IsSegmentation ps' (ps'.flatMap Piece.lines) := by
  induction hr generalizing lines with
  | nil => exact isSegmentation_nil.mpr rfl
  | @cons p p' ps ps' hp hps ih =>
    obtain ⟨rest, -, hproper, hlast, hrest⟩ := isSegmentation_cons.mp h
    refine isSegmentation_cons.mpr ⟨_, rfl, ?_, fun hopen => ?_, ih hrest⟩
    · cases hp with
      | outside outside => exact outside
      | block _ inside => exact ⟨hproper.1, inside, hproper.2.2⟩
    · have hnil : ps = [] := hlast (by cases hp <;> exact hopen)
      subst hnil
      cases hps
      rfl

section Evidence

variable {rules : RuleTables} {file : Text}

/-- A line has a prompt before the rest of it: a dollar sign, with nothing but blanks before it and
as many as there are after it, one at least. -/
def HasPrompt (line rest : Text) : Prop :=
  ∃ a b, line = a ++ .scalar '$' :: (b ++ rest) ∧ (∀ p ∈ a, p.isBlank = true) ∧ b ≠ [] ∧
    (∀ p ∈ b, p.isBlank = true) ∧ ∀ p ∈ rest.head?, p.isBlank = false

/-- The command of a line is what stands after the prompt, if there is one, without the blanks at
its edges. -/
def IsCommand (line c : Text) : Prop :=
  ∃ rest, (HasPrompt line rest ∨ (∀ r, ¬HasPrompt line r) ∧ rest = line) ∧ c = rest.strip

/-- The blanks at the left edge are trimmed up to what is none. -/
theorem trimLeft_eq_iff {p : Point → Bool} {t rest : Text} : t.trimLeft p = rest ↔
    ∃ a, t = a ++ rest ∧ (∀ x ∈ a, p x = true) ∧ ∀ x ∈ rest.head?, p x = false := by
  constructor
  · rintro rfl
    refine ⟨t.takeWhile p, List.takeWhile_append_dropWhile.symm,
      fun x hx => List.mem_takeWhile_imp hx, fun x hx => ?_⟩
    have hhead := List.head?_dropWhile_not p t
    have hx : (t.dropWhile p).head? = some x := hx
    rwa [hx] at hhead
  · rintro ⟨a, rfl, ha, hrest⟩
    unfold Text.trimLeft
    rw [List.dropWhile_append_of_pos ha]
    cases rest with
    | nil => rfl
    | cons x r => rw [List.dropWhile_cons, if_neg (by simp [hrest x rfl])]

/-- A prompt shows when the blanks before it are trimmed. -/
theorem hasPrompt_iff {line rest : Text} : HasPrompt line rest ↔
    ∃ p r, line.trimLeft Point.isBlank = .scalar '$' :: p :: r ∧ p.isBlank = true ∧
      Text.trimLeft Point.isBlank r = rest := by
  constructor
  · rintro ⟨a, b, rfl, ha, hb, hblank, hrest⟩
    obtain ⟨p, b, rfl⟩ := List.exists_cons_of_ne_nil hb
    obtain ⟨hp, hblank⟩ := List.forall_mem_cons.mp hblank
    refine ⟨p, b ++ rest, trimLeft_eq_iff.mpr ⟨a, rfl, ha, ?_⟩, hp,
      trimLeft_eq_iff.mpr ⟨b, rfl, hblank, hrest⟩⟩
    rintro _ ⟨⟩
    decide
  · rintro ⟨p, r, hline, hp, hr⟩
    obtain ⟨a, rfl, ha, -⟩ := trimLeft_eq_iff.mp hline
    obtain ⟨b, rfl, hb, hrest⟩ := trimLeft_eq_iff.mp hr
    exact ⟨a, p :: b, rfl, ha, by simp, List.forall_mem_cons.mpr ⟨hp, hb⟩, hrest⟩

/-- The command that is read off a line is the one that it has. -/
theorem isCommand_iff {line c : Text} : IsCommand line c ↔ c = command line := by
  -- With a prompt there is one rest, and without one the line itself is the rest.
  have hdrop (rest : Text) :
      (HasPrompt line rest ∨ (∀ r, ¬HasPrompt line r) ∧ rest = line) ↔ rest = dropPrompt line := by
    unfold dropPrompt
    split
    · rename_i p r hline
      split
      · rename_i hp
        have hrest (rest : Text) : HasPrompt line rest ↔ rest = Text.trimLeft Point.isBlank r := by
          rw [hasPrompt_iff, hline]
          constructor
          · rintro ⟨p', r', heq, -, rfl⟩
            cases heq
            rfl
          · rintro rfl
            exact ⟨p, r, rfl, hp, rfl⟩
        have hsome : ¬∀ r, ¬HasPrompt line r := fun h => h _ ((hrest _).mpr rfl)
        rw [hrest, or_iff_left (fun h => hsome h.1)]
      · rename_i hp
        have hnone (rest : Text) : ¬HasPrompt line rest := by
          rw [hasPrompt_iff, hline]
          rintro ⟨p', r', heq, hp', -⟩
          cases heq
          exact hp hp'
        simp [hnone]
    · rename_i hline
      have hnone (rest : Text) : ¬HasPrompt line rest := by
        rw [hasPrompt_iff]
        rintro ⟨p, r, heq, -⟩
        exact hline p r heq
      simp [hnone]
  unfold IsCommand command
  simp only [hdrop, exists_eq_left]

/-- Evidence reports a line of a body: the block is one of commands, and the command of the line has
a class. -/
structure Reports (rules : RuleTables) (file : Text) (l : BlockLine) (e : Evidence) : Prop where
  /-- The lines of the block are commands. -/
  executable : l.fence.isExecutable = true
  /-- The command has a class, and the evidence is of that class, on the line. -/
  classified : ∃ c k, IsCommand l.text c ∧ rules.classifyCommand c = some k ∧
    e = ⟨.codeBlock, file, some l.number, k.signal,
      ("Code block runs '" : Text) ++ k.signal ++ "': " ++ c.take 120, k.impact⟩

/-- The evidence that is found on a line is the one that reports it. -/
theorem lineEvidence?_eq_some_iff {l : BlockLine} {e : Evidence} :
    lineEvidence? rules file l = some e ↔ Reports rules file l e := by
  unfold lineEvidence?
  constructor
  · intro h
    split at h
    · rename_i hexecutable
      obtain ⟨k, hk, rfl⟩ := Option.map_eq_some_iff.mp h
      exact ⟨hexecutable, _, k, isCommand_iff.mpr rfl, hk, rfl⟩
    · cases h
  · rintro ⟨hexecutable, c, k, hc, hk, rfl⟩
    obtain rfl := isCommand_iff.mp hc
    rw [if_pos hexecutable]
    exact Option.map_eq_some_iff.mpr ⟨k, hk, rfl⟩

/-- The bodies of pieces in place of others have the same evidence. -/
theorem filterMap_bodiesFrom_replace {ps ps' : List Piece}
    (h : List.Forall₂ Piece.Replaces ps ps') (number : Nat) :
    (bodiesFrom number ps').filterMap (lineEvidence? rules file) =
      (bodiesFrom number ps).filterMap (lineEvidence? rules file) := by
  induction h generalizing number with
  | nil => rfl
  | @cons p p' ps ps' hp _ ih =>
    have hpiece : (p'.bodyLines number).filterMap (lineEvidence? rules file) =
        (p.bodyLines number).filterMap (lineEvidence? rules file) := by
      cases hp with
      | outside => rfl
      | @block f opener body body' closer? _ _ same =>
        by_cases hexecutable : f.isExecutable = true
        · rw [same hexecutable]
        · -- A line of such a block is no evidence, whatever it is.
          have hnone (body : List Text) :
              ((Piece.block f opener body closer?).bodyLines number).filterMap
                (lineEvidence? rules file) = [] := by
            refine List.filterMap_eq_nil_iff.mpr fun l hl => ?_
            obtain ⟨x, -, rfl⟩ := List.mem_map.mp hl
            exact if_neg hexecutable
          rw [hnone, hnone]
    unfold bodiesFrom
    rw [List.filterMap_append, List.filterMap_append, hpiece, hp.length_eq, ih]

/-- The evidence that is found on lines reports some of them, each by one piece. -/
theorem exists_sublist_reports (ls : List BlockLine) : ∃ ls', ls'.Sublist ls ∧
    (∀ l ∈ ls, l ∈ ls' ↔ ∃ e, Reports rules file l e) ∧
    List.Forall₂ (Reports rules file) ls' (ls.filterMap (lineEvidence? rules file)) := by
  refine ⟨ls.filter fun l => (lineEvidence? rules file l).isSome, List.filter_sublist,
    fun l hl => ?_, ?_⟩
  · rw [List.mem_filter, and_iff_right hl, Option.isSome_iff_exists]
    exact exists_congr fun e => lineEvidence?_eq_some_iff
  · induction ls with
    | nil => exact .nil
    | cons l ls ih =>
      cases hl : lineEvidence? rules file l with
      | none => simpa [hl] using ih
      | some e => simpa [hl] using ⟨lineEvidence?_eq_some_iff.mp hl, ih⟩

/-- The first lines are seen as they are without those that follow. -/
theorem exists_blockLinesFrom_append (number : Nat) (inside : Option Fence) (a b : List Text) :
    ∃ inside', blockLinesFrom number inside (a ++ b) =
      blockLinesFrom number inside a ++ blockLinesFrom (number + a.length) inside' b := by
  -- What is handed from the first lines to the others is whether a block is open, and which.
  induction a generalizing number inside with
  | nil => exact ⟨inside, rfl⟩
  | cons line a ih =>
    have hlength : number + (line :: a).length = number + 1 + a.length := by
      rw [List.length_cons]
      omega
    rw [List.cons_append, hlength]
    cases inside with
    | none => exact ih (number + 1) (Fence.open? line)
    | some f =>
      rw [blockLinesFrom, blockLinesFrom]
      by_cases hclosed : f.isClosedBy line = true
      · simp only [if_pos hclosed]
        exact ih (number + 1) none
      · simp only [if_neg hclosed]
        obtain ⟨inside', h⟩ := ih (number + 1) (some f)
        exact ⟨inside', by rw [h, List.cons_append]⟩

/-- A line of a block stands in the document at its number. -/
theorem of_mem_blockLinesFrom {number : Nat} {inside : Option Fence} {lines : List Text}
    {l : BlockLine} (h : l ∈ blockLinesFrom number inside lines) :
    number ≤ l.number ∧ lines[l.number - number]? = some l.text := by
  induction lines generalizing number inside with
  | nil => cases h
  | cons line r ih =>
    have hlater {inside : Option Fence} (h : l ∈ blockLinesFrom (number + 1) inside r) :
        number ≤ l.number ∧ (line :: r)[l.number - number]? = some l.text := by
      obtain ⟨hle, hget⟩ := ih h
      refine ⟨by omega, ?_⟩
      rw [show l.number - number = l.number - (number + 1) + 1 by omega]
      exact hget
    cases inside with
    | none => exact hlater h
    | some f =>
      rw [blockLinesFrom] at h
      split at h
      · exact hlater h
      · rcases List.mem_cons.mp h with rfl | h
        · exact ⟨Nat.le_refl number, by simp⟩
        · exact hlater h

/-- The evidence in the first lines of a document is the part of its evidence that is on them, and
comes first. -/
theorem commandEvidence_of_take {t t' : Text} {n : Nat} (h : t'.lines = t.lines.take n) :
    commandEvidence rules file t' <+: commandEvidence rules file t ∧
      commandEvidence rules file t' =
        (commandEvidence rules file t).filter fun e => e.line.all (· ≤ (n : Int)) := by
  have hnumber {l : BlockLine} {e : Evidence} (he : lineEvidence? rules file l = some e) :
      e.line = some (l.number : Int) := (of_lineEvidence? he).2
  obtain ⟨inside, happend⟩ :=
    exists_blockLinesFrom_append 1 none (t.lines.take n) (t.lines.drop n)
  rw [List.take_append_drop, ← h] at happend
  have hsplit : commandEvidence rules file t = commandEvidence rules file t' ++
      (blockLinesFrom (1 + t'.lines.length) inside (t.lines.drop n)).filterMap
        (lineEvidence? rules file) := by
    unfold commandEvidence blockLines
    rw [happend, List.filterMap_append]
  refine ⟨⟨_, hsplit.symm⟩, ?_⟩
  rw [hsplit, List.filter_append]
  have hfirst : (commandEvidence rules file t').filter (fun e => e.line.all (· ≤ (n : Int))) =
      commandEvidence rules file t' := by
    refine List.filter_eq_self.mpr fun e he => ?_
    obtain ⟨l, hl, he⟩ := List.mem_filterMap.mp he
    obtain ⟨hle, hget⟩ := of_mem_blockLinesFrom hl
    have hlt : l.number - 1 < n := by
      have hlength := (List.getElem?_eq_some_iff.mp hget).1
      rw [h, List.length_take] at hlength
      omega
    rw [hnumber he, Option.all_some, decide_eq_true_eq]
    omega
  have hlater : ((blockLinesFrom (1 + t'.lines.length) inside (t.lines.drop n)).filterMap
      (lineEvidence? rules file)).filter (fun e => e.line.all (· ≤ (n : Int))) = [] := by
    refine List.filter_eq_nil_iff.mpr fun e he => ?_
    obtain ⟨l, hl, he⟩ := List.mem_filterMap.mp he
    obtain ⟨hle, hget⟩ := of_mem_blockLinesFrom hl
    -- There are later lines, so that the first ones are as many as were taken.
    have hlength := (List.getElem?_eq_some_iff.mp hget).1
    rw [List.length_drop] at hlength
    rw [h, List.length_take] at hle
    rw [hnumber he, Option.all_some, decide_eq_true_eq]
    omega
  rw [hfirst, hlater, List.append_nil]

end Evidence

end Markdown

open Markdown

/-- The commands in a document are found by the grammar of fenced blocks. Its lines are cut in
exactly one way into lines outside of blocks, which open none, and blocks, in which the first line
opens the block, no line of the body closes it and the last one does, unless the document ends
before. The evidence is, in the order of the lines, one piece for each line of a body whose block is
one of commands and whose command has a class, with the number of the line, and there is no other.
So lines outside may be replaced by others that open no block, and lines in a body that are no
commands by others that do not close it, and the evidence is the same; and the evidence in the first
lines of the document is the part of the evidence that is on them, and comes first. -/
theorem fences_follow_grammar (rules : RuleTables) (file t : Text) :
    (∃! ps, IsSegmentation ps t.lines) ∧
    (∀ ps, IsSegmentation ps t.lines →
      (∃ ls, ls.Sublist (bodiesFrom 1 ps) ∧
        (∀ l ∈ bodiesFrom 1 ps, l ∈ ls ↔ ∃ e, Reports rules file l e) ∧
        List.Forall₂ (Reports rules file) ls (commandEvidence rules file t)) ∧
      (∀ l ∈ bodiesFrom 1 ps, 1 ≤ l.number ∧ t.lines[l.number - 1]? = some l.text) ∧
      ∀ ps' t', List.Forall₂ Piece.Replaces ps ps' → t'.lines = ps'.flatMap Piece.lines →
        IsSegmentation ps' t'.lines ∧
          commandEvidence rules file t' = commandEvidence rules file t) ∧
    ∀ t' n, t'.lines = t.lines.take n →
      commandEvidence rules file t' <+: commandEvidence rules file t ∧
        commandEvidence rules file t' =
          (commandEvidence rules file t).filter fun e => e.line.all (· ≤ (n : Int)) := by
  refine ⟨?_, fun ps hps => ?_, fun t' n h => commandEvidence_of_take h⟩
  · obtain ⟨ps, hps⟩ := exists_isSegmentation t.lines
    exact ⟨ps, hps, fun qs hqs => hqs.unique hps⟩
  -- A document has one division, so what is said of the division of the reader is said of any.
  have hlines : blockLines t = bodiesFrom 1 ps := blockLinesFrom_eq hps 1
  refine ⟨?_, ?_, ?_⟩
  · unfold commandEvidence
    rw [hlines]
    exact exists_sublist_reports (bodiesFrom 1 ps)
  · rw [← hlines]
    exact fun l hl => of_mem_blockLinesFrom hl
  · intro ps' t' hr ht'
    have hps' := hps.replace hr
    rw [← ht'] at hps'
    refine ⟨hps', ?_⟩
    unfold commandEvidence
    rw [hlines, show blockLines t' = bodiesFrom 1 ps' from blockLinesFrom_eq hps' 1]
    exact filterMap_bodiesFrom_replace hr 1

end SurfaceAudit
