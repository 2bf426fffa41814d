import SurfaceAudit.Calendar
import SurfaceAudit.Text.Lines

/-!
# Timestamps of YAML

A timestamp is a day, or a day and a time with an optional fraction and zone. The reading of the
form comes before the question whether the calendar has such a day or moment.
-/

namespace SurfaceAudit.Yaml

/-- The numbers of a time of day, and what is written of its zone. -/
structure StampTime where
  /-- The hour. -/
  hour : Nat
  /-- The minute. -/
  minute : Nat
  /-- The second. -/
  second : Nat
  /-- The digits of the fraction. -/
  fraction : List Nat
  /-- The distance from universal time in minutes, if a zone is written. -/
  offset : Option Int

/-- The numbers of a timestamp. -/
structure Stamp where
  /-- The year. -/
  year : Nat
  /-- The month. -/
  month : Nat
  /-- The day of the month. -/
  day : Nat
  /-- Month and day are written with two digits each. -/
  twoDigits : Bool
  /-- The time of day, if there is one. -/
  time : Option StampTime

namespace Stamp

/-- The number that ASCII digits spell. -/
def number (t : Text) : Nat := t.foldl (fun n p => n * 10 + (p.val - 48)) 0

/-- Between `least` and `most` digits and then something else: the digits and the rest. -/
def digits? (least most : Nat) (t : Text) : Option (Text × Text) :=
  let ds := (t.take most).takeWhile Point.isAsciiDigit
  if ds.length < least then none else some (ds, t.drop ds.length)

/-- The text after a given code point. -/
def after? (c : Char) : Text → Option Text
  | p :: r => if p == .scalar c then some r else none
  | [] => none

/-- The end of the text, or a line feed at the end of the text. -/
def atEnd (t : Text) : Bool := t.isEmpty || t == [.scalar '\n']

/-- A blank or tab. -/
def isSpace (p : Point) : Bool := p == ' ' || p == '\t'

/-- The zone at the end of a time: none, the letter for universal time, or a signed distance. -/
def zone? (t : Text) : Option (Option Int) :=
  if atEnd t then some none
  else match t.dropWhile isSpace with
    | .scalar 'Z' :: r => if atEnd r then some (some 0) else none
    | .scalar c :: r => do
      guard (c == '+' || c == '-')
      let (hours, r) ← digits? 1 2 r
      let (minutes, r) ← match after? ':' r with
        | some r => digits? 2 2 r
        | none => some ([], r)
      guard (atEnd r)
      let distance : Int := number hours * 60 + number minutes
      return some (if c == '-' then -distance else distance)
    | _ => none

/-- The time of day at the end of a timestamp. -/
def time? (t : Text) : Option StampTime := do
  let (hour, t) ← digits? 1 2 t
  let (minute, t) ← digits? 2 2 (← after? ':' t)
  let (second, t) ← digits? 2 2 (← after? ':' t)
  let (fraction, t) := match after? '.' t with
    | some t => (t.takeWhile Point.isAsciiDigit, t.dropWhile Point.isAsciiDigit)
    | none => ([], t)
  let offset ← zone? t
  return ⟨number hour, number minute, number second, fraction.map (·.val - 48), offset⟩

/-- The text after the letter or the blanks that separate day and time. -/
def afterSeparator? : Text → Option Text
  | .scalar 'T' :: r => some r
  | .scalar 't' :: r => some r
  | p :: r => if isSpace p then some (r.dropWhile isSpace) else none
  | [] => none

/-- The timestamp that a text has the form of. -/
def read? (t : Text) : Option Stamp := do
  let (year, t) ← digits? 4 4 t
  let (month, t) ← digits? 1 2 (← after? '-' t)
  let (day, t) ← digits? 1 2 (← after? '-' t)
  let twoDigits := month.length == 2 && day.length == 2
  if atEnd t then return ⟨number year, number month, number day, twoDigits, none⟩
  else
    let time ← time? (← afterSeparator? t)
    return ⟨number year, number month, number day, twoDigits, some time⟩

/-- The untagged text is taken for a timestamp: a day alone needs two digits for month and day. -/
def isSuggested (t : Text) : Bool :=
  match read? t with
  | some s => s.time.isSome || s.twoDigits
  | none => false

/-- The fraction in millionths: six digits, filled with zeros, the rest passed over. -/
def millionths (ds : List Nat) : Nat :=
  (ds ++ List.replicate (6 - ds.length) 0).take 6 |>.foldl (fun n d => n * 10 + d) 0

/-- The day or moment of a timestamp. The zone is looked at before the other numbers. -/
def value (s : Stamp) : Except Calendar.Defect (Calendar.Date ⊕ Calendar.Moment) :=
  match s.time with
  | none => (Calendar.Date.of s.year s.month s.day).map .inl
  | some t => do
    let offset ← match t.offset with
      | some minutes => (Calendar.checkOffset minutes).map some
      | none => .ok none
    let moment ← Calendar.Moment.of s.year s.month s.day t.hour t.minute t.second
      (millionths t.fraction) offset
    return .inr moment

end Stamp

end SurfaceAudit.Yaml
