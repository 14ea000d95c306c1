/-!
# Days and times

Days of the calendar, and times of the day with or without a zone. A time in a zone stands for an
instant, which other times in other zones stand for too.
-/

namespace RobotProgram

/-- A number filled with zeros. -/
def zeroFilled (width n : Nat) : String :=
  let ds := Nat.toDigits 10 n
  String.ofList (List.replicate (width - ds.length) '0' ++ ds)

namespace Calendar

/-- The number of days of a month. -/
def daysIn (year month : Nat) : Nat :=
  if month == 2 then
    if year % 4 == 0 && (year % 100 != 0 || year % 400 == 0) then 29 else 28
  else if [4, 6, 9, 11].contains month then 30
  else 31

/-- The number of days before a year. -/
def daysBefore (year : Nat) : Nat :=
  let past := year - 1
  past * 365 + past / 4 - past / 100 + past / 400

/-- The number of a day, where the first day of the first year has number one. -/
def dayNumber (year month day : Nat) : Nat :=
  (List.range' 1 (month - 1)).foldl (fun days m => days + daysIn year m) (daysBefore year) + day

end Calendar

/-- A time of the day. -/
structure Clock where
  hour : Nat
  minute : Nat
  second : Nat
  /-- Millionths of a second. -/
  micro : Nat
  /-- The minutes that the zone is ahead, if there is one. -/
  zone : Option Int
deriving DecidableEq, Repr

namespace Clock

/-- The instant of the time on a day, in millionths of a second. -/
def instant (c : Clock) (year month day : Nat) : Int :=
  let minutes : Int := (Calendar.dayNumber year month day * 24 + c.hour) * 60 + c.minute
  ((minutes - c.zone.getD 0) * 60 + c.second) * 1000000 + c.micro

/-- The text of a zone. -/
def zoneText (minutes : Int) : String :=
  let n := minutes.natAbs
  (if minutes < 0 then "-" else "+") ++ zeroFilled 2 (n / 60) ++ ":" ++ zeroFilled 2 (n % 60)

/-- The text of the time. -/
def text (c : Clock) : String :=
  zeroFilled 2 c.hour ++ ":" ++ zeroFilled 2 c.minute ++ ":" ++ zeroFilled 2 c.second ++
    (if c.micro == 0 then "" else "." ++ zeroFilled 6 c.micro) ++ c.zone.elim "" zoneText

/-- A span of minutes as data: whole days, and the seconds of the last one. -/
def spanLiteral (minutes : Int) : String :=
  let days := Int.fdiv minutes 1440
  let seconds := Int.fmod minutes 1440 * 60
  let parts := (if days == 0 then [] else ["days=" ++ toString days]) ++
    if seconds == 0 then [] else ["seconds=" ++ toString seconds]
  "datetime.timedelta(" ++ (if parts.isEmpty then "0" else String.intercalate ", " parts) ++ ")"

/-- A zone as data. -/
def zoneLiteral (minutes : Int) : String :=
  if minutes == 0 then "datetime.timezone.utc"
  else "datetime.timezone(" ++ spanLiteral minutes ++ ")"

/-- The time as data, after its day; seconds that are zero are left out. -/
def literal (c : Clock) : String :=
  ", " ++ toString c.hour ++ ", " ++ toString c.minute ++
    (if c.micro != 0 then ", " ++ toString c.second ++ ", " ++ toString c.micro
      else if c.second != 0 then ", " ++ toString c.second
      else "") ++
    c.zone.elim "" fun z => ", tzinfo=" ++ zoneLiteral z

end Clock

end RobotProgram
