import SurfaceAudit.Text.Class

/-!
# Letter case

Small letters of single code points and of texts, the capitals that a level name may be written
with, and the key under which code points are the same letter when case is ignored.
-/

namespace SurfaceAudit.Point

/-- The distance from a capital letter to its small letter. -/
def distanceToSmall (n : Nat) : Option Int :=
  (Alphabet.smallLetters.find? fun (first, last, step, _) =>
    first ≤ n && n ≤ last && (n - first) % step == 0).map (·.2.2.2)

/-- The number of the small letter of a code point, which is itself where there is none. -/
def smallVal (p : Point) : Nat :=
  if p.isAscii then if p.between 'A' 'Z' then p.val + 32 else p.val
  else if p.val == 0x130 then 0x69
  else match distanceToSmall p.val with
    | some d => (p.val + d).toNat
    | none => p.val

/-- The small letter of a code point. -/
def small (p : Point) : Point := (ofNat? p.smallVal).getD p

/-- Code points are the same letter, case ignored, when they have the same key: the small letter,
or the earliest small letter with the same capital. -/
def caseKey (p : Point) : Nat :=
  let n := p.smallVal
  ((Alphabet.sameCapital.find? (·.1 == n)).map (·.2)).getD n

/-- The code points that have a key. -/
def withCaseKey (key : Nat) : List Nat :=
  let smalls := key :: (Alphabet.sameCapital.filter (·.2 == key)).map (·.1)
  let capitals := smalls.flatMap fun n =>
    Alphabet.smallLetters.toList.filterMap fun (first, last, step, d) =>
      let c := (n : Int) - d
      if first ≤ c && c ≤ last && (c - first) % step == 0 then some c.toNat else none
  if key == 0x69 then 0x130 :: (smalls ++ capitals) else smalls ++ capitals

/-- The rule for the final sigma looks through the code point. -/
def isCaseIgnorable (p : Point) : Bool := Alphabet.caseIgnorable.contains p.val

/-- A code point with case. -/
def isCased (p : Point) : Bool := Alphabet.cased.contains p.val

/-- The ASCII capitals of a code point whose capitals are ASCII. -/
def asciiCapitals? (p : Point) : Option Text :=
  if p.between 'a' 'z' then (ofNat? (p.val - 32)).map ([·])
  else if p.isAscii then some [p]
  else match p.val with
    | 0xDF => some "SS"
    | 0x131 => some "I"
    | 0x17F => some "S"
    | 0xFB00 => some "FF"
    | 0xFB01 => some "FI"
    | 0xFB02 => some "FL"
    | 0xFB03 => some "FFI"
    | 0xFB04 => some "FFL"
    | 0xFB05 => some "ST"
    | 0xFB06 => some "ST"
    | _ => none

end SurfaceAudit.Point

namespace SurfaceAudit.Text

/-- What follows a capital sigma has a letter with case before anything else that counts. -/
def casedAhead (t : Text) : Bool :=
  match t.dropWhile Point.isCaseIgnorable with
  | [] => false
  | c :: _ => c.isCased

/-- Small letters for the rest of a text, given whether a letter with case came last among what
counts; what is done stands in reverse. -/
def lowerFrom : Text → Bool → Text → Text
  | [], _, done => done.reverse
  | c :: r, afterCased, done =>
    let cased := if c.isCaseIgnorable then afterCased else c.isCased
    if c.val == 0x3A3 then
      let sigma := if afterCased && !casedAhead r then 'ς' else 'σ'
      lowerFrom r cased (.scalar sigma :: done)
    else if c.val == 0x130 then lowerFrom r cased ('\u0307' :: 'i' :: done)
    else lowerFrom r cased (c.small :: done)

/-- The text in small letters. A capital sigma at the end of a word becomes a final sigma, and a
dotted capital I keeps its dot as a mark of its own. -/
def lower (t : Text) : Text := lowerFrom t false []

/-- The text in capitals, if they are all ASCII. -/
def asciiUpper? (t : Text) : Option Text := (t.mapM Point.asciiCapitals?).map List.flatten

end SurfaceAudit.Text
