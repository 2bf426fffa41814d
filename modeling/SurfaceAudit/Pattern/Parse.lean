import SurfaceAudit.Pattern.Source

/-!
# Expressions from their text

Alternatives, sequences and groups. Flags for the whole may stand at its start only, so that the
flags of every part are known when it is read. What only the finished expression shows, such as the
width of a look back, is checked at the end.
-/

namespace SurfaceAudit.Pattern

namespace Reading

/-- A blank that is passed over in verbose expressions. -/
def isFiller (t : Text) : Bool :=
  match t with
  | [p] => p == ' ' || p.between '\t' '\r'
  | _ => false

/-- Passes over tokens up to a given one or the end; the answer is whether it was met. -/
def skipPast (c : Char) : Nat → Reading Bool
  | 0 => return false
  | bound + 1 => do
    let t ← take
    if t.isEmpty then return false
    else if t == [.scalar c] then return true
    else skipPast c bound

/-- The flag of a token, which has to be one. -/
def flagOf (t : Text) (otherwise : Reason) : Reading Flag := do
  match Flag.ofLetter? t with
  | some f => return f
  | none =>
    match t with
    | [p] => if p.isLetter then fail .unknownFlag 1 else fail otherwise 1
    | _ => fail otherwise t.length

/-- Reads flags to be turned on from the first one; also the token after them. -/
def flagsOn : Nat → Flag → Flags → Reading (Flags × Text)
  | 0, _, _ => fail .flagsUnended 0
  | bound + 1, f, on => do
    if f == .locale then fail .localeFlag 0
    let on := f :: on
    if f.isAlphabet && on.any (fun g => g.isAlphabet && g != f) then fail .alphabetFlags 0
    let t ← take
    if t.isEmpty then fail .flagsUnended 0
    else if t == [.scalar ')'] || t == [.scalar '-'] || t == [.scalar ':'] then return (on, t)
    else flagsOn bound (← flagOf t .flagsUnended) on

/-- Reads flags to be turned off from the first one, up to the colon. -/
def flagsOff : Nat → Flag → Flags → Reading Flags
  | 0, _, _ => fail .missingColon 0
  | bound + 1, f, off => do
    if f.isAlphabet then fail .alphabetFlagOff 0
    let off := f :: off
    let t ← take
    if t.isEmpty then fail .missingColon 0
    else if t == [.scalar ':'] then return off
    else flagsOff bound (← flagOf t .missingColon) off

/-- Reads the flags of a group from the first token: nothing if they are for the whole, which they
are added to, and else those turned on and those turned off. -/
def flagSwitch (token : Text) : Reading (Option (Flags × Flags)) := do
  let bound := (← get).pattern.length + 1
  let (on, t) ← match Flag.ofLetter? token with
    | some f => flagsOn bound f []
    | none => pure ([], token)
  if t == [.scalar ')'] then
    modify fun s => { s with flags := on ++ s.flags }
    return none
  if on.contains .template then fail .globalFlagOn 1
  let off ← if t == [.scalar '-'] then do
      let t ← take
      if t.isEmpty then fail .missingFlag 0
      flagsOff bound (← flagOf t .missingFlag) []
    else pure []
  if off.contains .template then fail .globalFlagOff 1
  if on.any off.contains then fail .flagOnAndOff 1
  return some (on, off)

/-- Opens a group, which gets the next number. -/
def openGroup (name : Option Text) : Reading Nat := do
  let s ← get
  let n := s.widths.size
  match name with
  | none => set { s with widths := s.widths.push none }
  | some t =>
    match s.names.find? (·.1 == t) with
    | some (_, earlier) => fail (.redefined t n earlier) (t.length + 1)
    | none => set { s with widths := s.widths.push none, names := (t, n) :: s.names }
  return n

/-- Closes a group, whose width is known from then on. -/
def closeGroup (n : Nat) (e : Expr) : Reading Unit :=
  modify fun s => { s with widths := s.widths.setIfInBounds n (some (e.width s.width)) }

/-- Takes the bracket that closes a group. -/
def closing (start : Nat) : Reading Unit := do
  if !(← accept ')') then failAt start .unterminatedGroup

/-- Reads the name or number of the group in a condition. -/
def condition : Reading Nat := do
  let t ← name ')' "group name"
  let offset := t.length + 1
  let n ← if t.isIdentifier then
      match (← get).names.find? (·.1 == t) with
      | some (_, n) => pure n
      | none => fail (.unknownName t) offset
    else match Number.readInt 10 t with
      | .ok (.ofNat n) =>
        if n == 0 then fail .groupZero offset
        else if 1073741823 ≤ n then fail (.noGroup n) offset
        -- The group may come later, so the number is checked at the end.
        else do
          let spot := (← position) - offset
          modify fun s =>
            if s.references.any (·.1 == n) then s
            else { s with references := s.references ++ [(n, spot)] }
          pure n
      | _ => fail (.badName t) offset
  checkLookBack n
  return n

/-- What a group turns out to be after its bracket and the marks that follow. -/
inductive GroupKind where
  /-- It is over: a comment, or flags for the whole. -/
  | over
  /-- It is over, and refers to another group. -/
  | item (i : Item)
  /-- A group that is kept, with its name. -/
  | kept (name : Option Text)
  /-- A group with flags turned on and off. -/
  | plain (on off : Flags)
  /-- A group that is matched in its first way only. -/
  | atomic
  /-- A condition on what follows. -/
  | ahead (positive : Bool)
  /-- A condition on what stands before. -/
  | behind (positive : Bool)
  /-- A choice by a group. -/
  | choice (n : Nat)

/-- Reads the start of a group. The flag says that flags for the whole may stand here. -/
def groupKind (flags : Flags) (start : Nat) (atStart : Bool) : Reading GroupKind := do
  if !(← accept '?') then return .kept none
  let t ← take
  match t with
  | [] => fail .endOfPattern 0
  | [.scalar 'P'] =>
    if ← accept '<' then return .kept (some (← groupName '>'))
    else if ← accept '=' then
      let t ← groupName ')'
      match (← get).names.find? (·.1 == t) with
      | none => fail (.unknownName t) (t.length + 1)
      | some (_, n) => return .item (← reference flags n (t.length + 1))
    else
      let t ← take
      if t.isEmpty then fail .endOfPattern 0
      else fail (.unknownExtension (.scalar 'P' :: t)) (t.length + 2)
  | [.scalar ':'] => return .plain [] []
  | [.scalar '#'] =>
    let s ← get
    if ← skipPast ')' (s.pattern.length + 1) then return .over
    else failAt start .unterminatedComment
  | [.scalar '='] => return .ahead true
  | [.scalar '!'] => return .ahead false
  | [.scalar '<'] =>
    let t ← take
    if t.isEmpty then fail .endOfPattern 0
    else if t == [.scalar '='] then return .behind true
    else if t == [.scalar '!'] then return .behind false
    else fail (.unknownExtension (.scalar '<' :: t)) (t.length + 2)
  | [.scalar '('] => return .choice (← condition)
  | [.scalar '>'] => return .atomic
  | _ =>
    if (Flag.ofLetter? t).isSome || t == [.scalar '-'] then
      match ← flagSwitch t with
      | some (on, off) => return .plain on off
      | none => if atStart then return .over else failAt start .flagsNotAtStart
    else fail (.unknownExtension t) (t.length + 1)

/-- The items of a sequence, which stand in reverse, as an expression. -/
def sequenceOf (done : List Item) : Expr := Expr.all (done.reverse.map (·.expr))

mutual

/-- Reads alternatives. The bound is at least four times the number of code points left. -/
def alternatives (bound : Nat) (flags : Flags) (outermost first : Bool) : Reading Expr := do
  match bound with
  | 0 => fail .endOfPattern 0
  | bound + 1 =>
    let e ← sequence bound flags outermost (outermost && first) []
    if ← accept '|' then
      let s ← get
      -- Flags for the whole hold for the alternatives after them too.
      let flags := if outermost then s.flags else flags
      return .alt e (← alternatives bound flags outermost false)
    else return e

/-- Reads a sequence; the items read stand in reverse. -/
def sequence (bound : Nat) (flags : Flags) (outermost first : Bool) (done : List Item) :
    Reading Expr := do
  match bound with
  | 0 => fail .endOfPattern 0
  | bound + 1 =>
    let next ← peek
    if next.isEmpty || next == [.scalar '|'] || next == [.scalar ')'] then
      return sequenceOf done
    let t ← take
    let go (done : List Item) : Reading Expr := sequence bound flags outermost first done
    if flags.contains .verbose && isFiller t then go done
    else if flags.contains .verbose && t == [.scalar '#'] then
      let s ← get
      discard (skipPast '\n' (s.pattern.length + 1))
      go done
    else match t with
      | [.scalar '['] => go ((← charClass flags) :: done)
      | [.scalar '*'] => go (← quantifier flags t done)
      | [.scalar '+'] => go (← quantifier flags t done)
      | [.scalar '?'] => go (← quantifier flags t done)
      | [.scalar '{'] => go (← quantifier flags t done)
      | [.scalar '.'] =>
        let members := if flags.contains .dotAll then [] else [.point 10]
        go (unit ⟨true, .exact, members⟩ :: done)
      | [.scalar '^'] =>
        let a := if flags.contains .multiLine then Anchor.lineStart else .textStart
        go (⟨.anchor a, .anchor⟩ :: done)
      | [.scalar '$'] =>
        let a := if flags.contains .multiLine then Anchor.lineEnd else .finalEnd
        go (⟨.anchor a, .anchor⟩ :: done)
      | [.scalar '('] =>
        match ← group bound flags (first && done.isEmpty) with
        | some item => go (item :: done)
        | none =>
          let s ← get
          let flags := if outermost then s.flags else flags
          sequence bound flags outermost first done
      | [p] => go (literal flags p.val :: done)
      | _ => go ((← escape flags t) :: done)

/-- Reads a group after its bracket; nothing, if it is a comment or holds flags for the whole. -/
def group (bound : Nat) (flags : Flags) (atStart : Bool) : Reading (Option Item) := do
  match bound with
  | 0 => fail .endOfPattern 0
  | bound + 1 =>
    let start := (← position) - 1
    match ← groupKind flags start atStart with
    | .over => return none
    | .item i => return some i
    | .kept name =>
      let n ← openGroup name
      let e ← alternatives bound flags false false
      closing start
      closeGroup n e
      return some ⟨.group n e, .other⟩
    | .plain on off =>
      let e ← alternatives bound (flags.combine on off) false false
      closing start
      return some ⟨e, .other⟩
    | .atomic =>
      let e ← alternatives bound flags false false
      closing start
      return some ⟨.atomic e, .other⟩
    | .ahead positive =>
      let e ← alternatives bound flags false false
      closing start
      return some ⟨.ahead positive e, .other⟩
    | .behind positive =>
      let before := (← get).lookBack
      -- Inside of nested look backs the outermost one decides which groups may be referred to.
      if before.isNone then modify fun s => { s with lookBack := some s.widths.size }
      let e ← alternatives bound flags false false
      modify fun s => { s with lookBack := before }
      closing start
      let (least, most) := e.width (← get).width
      return some ⟨.behind positive least most e, .other⟩
    | .choice n =>
      let yes ← sequence bound flags false false []
      let no ← if ← accept '|' then do
          let e ← sequence bound flags false false []
          if (← peek) == [.scalar '|'] then fail .thirdBranch 0
          pure e
        else pure .empty
      closing start
      return some ⟨.ifGroup n yes no, .other⟩

end

/-- Reads a whole expression, and its flags. -/
def whole : Reading (Expr × Flags) := do
  let s ← get
  let e ← alternatives (4 * s.pattern.length + 8) s.flags true true
  let s ← get
  if s.flags.contains .ascii && s.flags.contains .unicode then throw (.fault .alphabetFlags)
  if !s.next.isEmpty then fail .unbalanced 0
  match s.references.find? fun r => s.widths.size ≤ r.1 with
  | some (n, spot) => failAt spot (.noGroup n)
  | none => return (e, s.flags)

end Reading

/-- The name of a repetition in a message about templates. -/
def Greed.name : Greed → Text
  | .greedy => "MAX_REPEAT"
  | .lazy => "MIN_REPEAT"
  | .possessive => "POSSESSIVE_REPEAT"

/-- What is wrong with a finished expression, from left to right: a look back without a fixed width
or that goes too far, and in a template any repetition. -/
def Expr.defect? (template : Bool) : Expr → Option Reason
  | .empty => none
  | .unit _ => none
  | .anchor _ => none
  | .seq a b => (a.defect? template).or (b.defect? template)
  | .alt a b => (a.defect? template).or (b.defect? template)
  | .group _ e => e.defect? template
  | .atomic e => e.defect? template
  | .repeated g _ _ e => if template then some (.templateRepeat g.name) else e.defect? template
  | .ahead _ e => e.defect? template
  | .behind _ least most e =>
    if 4294967295 < least then some .lookBackFar
    else if most != some least then some .lookBackWidth
    else e.defect? template
  | .back _ _ => none
  | .ifGroup _ a b => (a.defect? template).or (b.defect? template)

/-- The expression that a text spells under flags for the whole. -/
def Expr.parse (flags : Flags) (t : Text) : Except Failure Expr := do
  let start : Source := ⟨t, t, 0, [], flags, [], #[none], none, []⟩
  let s ← start.advance
  let ((e, flags), _) ← Reading.whole.run s
  match e.defect? (flags.contains .template) with
  | some r => .error (.defect ⟨r, none⟩)
  | none => return e

end SurfaceAudit.Pattern
