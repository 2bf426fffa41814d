import SurfaceAudit.Text.Point

/-!
# Dates and moments

Days of the calendar that runs back unchanged to the year 1, and moments of a day with an optional
distance from universal time.
-/

namespace SurfaceAudit.Calendar

/-- A day. -/
structure Date where
  /-- The year, from 1 to 9999. -/
  year : Nat
  /-- The month, from 1 to 12. -/
  month : Nat
  /-- The day of the month. -/
  day : Nat
  deriving DecidableEq, Inhabited

/-- A moment of a day. -/
structure Moment where
  /-- The day. -/
  date : Date
  /-- The hour, from 0 to 23. -/
  hour : Nat
  /-- The minute, from 0 to 59. -/
  minute : Nat
  /-- The second, from 0 to 59. -/
  second : Nat
  /-- The millionths of a second. -/
  micro : Nat
  /-- The distance from universal time in minutes, if it is known. -/
  offset : Option Int
  deriving DecidableEq, Inhabited

/-- What keeps numbers from being a moment. -/
inductive Defect where
  /-- There is no such year. -/
  | year (n : Nat)
  /-- There is no such month. -/
  | month
  /-- The month has no such day. -/
  | day
  /-- The day has no such hour. -/
  | hour
  /-- The hour has no such minute. -/
  | minute
  /-- The minute has no such second. -/
  | second
  /-- The distance from universal time, in minutes, is a day or more. -/
  | offset (minutes : Int)
  deriving DecidableEq

/-- The year has a leap day. -/
def isLeap (year : Nat) : Bool := year % 4 == 0 && (year % 100 != 0 || year % 400 == 0)

/-- The number of days of a month. -/
def daysIn (year month : Nat) : Nat :=
  if month == 2 then if isLeap year then 29 else 28
  else if month == 4 || month == 6 || month == 9 || month == 11 then 30
  else 31

/-- The day with given numbers. -/
def Date.of (year month day : Nat) : Except Defect Date :=
  if year < 1 || 9999 < year then .error (.year year)
  else if month < 1 || 12 < month then .error .month
  else if day < 1 || daysIn year month < day then .error .day
  else .ok ⟨year, month, day⟩

/-- A distance from universal time, which is less than a day. -/
def checkOffset (minutes : Int) : Except Defect Int :=
  if minutes.natAbs < 1440 then .ok minutes else .error (.offset minutes)

/-- The moment with given numbers. -/
def Moment.of (year month day hour minute second micro : Nat) (offset : Option Int) :
    Except Defect Moment := do
  let date ← Date.of year month day
  if 23 < hour then .error .hour
  else if 59 < minute then .error .minute
  else if 59 < second then .error .second
  else .ok ⟨date, hour, minute, second, micro, offset⟩

/-- A number with two digits at least. -/
def two (n : Nat) : Text := Text.padZero 2 (Text.ofNat n)

/-- The text of a day: year, month and day. -/
def Date.text (d : Date) : Text :=
  Text.padZero 4 (Text.ofNat d.year) ++ .scalar '-' :: two d.month ++ .scalar '-' :: two d.day

/-- The text of a distance from universal time: sign, hours and minutes. -/
def offsetText (minutes : Int) : Text :=
  .scalar (if minutes < 0 then '-' else '+') ::
    (two (minutes.natAbs / 60) ++ .scalar ':' :: two (minutes.natAbs % 60))

/-- The text of a moment: the day, the time, and what there is of a fraction and an offset. -/
def Moment.text (m : Moment) : Text :=
  m.date.text ++ .scalar ' ' :: two m.hour ++ .scalar ':' :: two m.minute ++
    .scalar ':' :: two m.second ++
    (if m.micro == 0 then [] else .scalar '.' :: Text.padZero 6 (Text.ofNat m.micro)) ++
    (m.offset.map offsetText).getD []

/-- A span of minutes as whole days and the seconds after them. -/
def spanText (minutes : Int) : Text :=
  let days := Int.fdiv minutes 1440
  let seconds := Int.fmod minutes 1440 * 60
  let parts : List Text :=
    (if days == 0 then [] else [("days=" : Text) ++ Text.ofInt days]) ++
      (if seconds == 0 then [] else [("seconds=" : Text) ++ Text.ofInt seconds])
  ("datetime.timedelta(" : Text) ++
    (if parts.isEmpty then ("0" : Text) else Text.join ", " parts) ++ ")"

/-- The written form of a day inside a container. -/
def Date.quoted (d : Date) : Text :=
  ("datetime.date(" : Text) ++ Text.join ", " ([d.year, d.month, d.day].map Text.ofNat) ++ ")"

/-- The written form of a moment inside a container; zeros at the end of the time are left out. -/
def Moment.quoted (m : Moment) : Text :=
  let time := if m.micro == 0 then if m.second == 0 then [] else [m.second]
    else [m.second, m.micro]
  let numbers := [m.date.year, m.date.month, m.date.day, m.hour, m.minute] ++ time
  let zone : List Text := match m.offset with
    | none => []
    | some 0 => ["tzinfo=datetime.timezone.utc"]
    | some minutes => [("tzinfo=datetime.timezone(" : Text) ++ spanText minutes ++ ")"]
  ("datetime.datetime(" : Text) ++ Text.join ", " (numbers.map Text.ofNat ++ zone) ++ ")"

/-- The words for a defect. -/
def Defect.message : Defect → Text
  | .year n => ("year " : Text) ++ Text.ofNat n ++ " is out of range"
  | .month => "month must be in 1..12"
  | .day => "day is out of range for month"
  | .hour => "hour must be in 0..23"
  | .minute => "minute must be in 0..59"
  | .second => "second must be in 0..59"
  | .offset minutes =>
    ("offset must be a timedelta strictly between -timedelta(hours=24) and " : Text) ++
      "timedelta(hours=24), not " ++ spanText minutes ++ "."

end SurfaceAudit.Calendar
