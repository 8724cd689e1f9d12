/-!
# Dates and moments

Days of the Gregorian calendar, times of day, and offsets from universal time, with their
ISO 8601 texts. A moment is only built from fields that are in range; the first field that is
not, in the order offset, year, month, day, hour, minute, second, is the cause of the refusal.
-/

namespace BrowserFlow

/-- Why fields do not make a date or a moment. -/
inductive CalendarError
  | offset (minutes : Int)
  | year (year : Nat)
  | month
  | day
  | hour
  | minute
  | second
  deriving Repr, DecidableEq

structure Date where
  year : Nat
  month : Nat
  day : Nat
  deriving Repr, DecidableEq, Inhabited

structure TimeOfDay where
  hour : Nat
  minute : Nat
  second : Nat
  micro : Nat
  deriving Repr, DecidableEq, Inhabited

/-- A date and a time, with an offset in minutes from universal time if one is known. -/
structure Moment where
  date : Date
  time : TimeOfDay
  offset : Option Int
  deriving Repr, DecidableEq, Inhabited

namespace Calendar

def isLeap (year : Nat) : Bool :=
  year % 4 == 0 && (year % 100 != 0 || year % 400 == 0)

def daysInMonth (year month : Nat) : Nat :=
  if month == 2 then if isLeap year then 29 else 28
  else if month == 4 || month == 6 || month == 9 || month == 11 then 30
  else 31

/-- `n` with at least `width` digits. -/
def padded (width n : Nat) : String :=
  let digits := Nat.toDigits 10 n
  String.ofList (List.replicate (width - digits.length) '0' ++ digits)

end Calendar

open Calendar

/-- The date with these fields, if there is one. -/
def Date.make (year month day : Nat) : Except CalendarError Date :=
  if year < 1 || 9999 < year then .error (.year year)
  else if month < 1 || 12 < month then .error .month
  else if day < 1 || daysInMonth year month < day then .error .day
  else .ok ⟨year, month, day⟩

/-- The date that is so many days after 1 March of the year 0. Years are counted from March here, so
that a leap day is the last day of its year, and 400 of them always have the same number of days. -/
def Date.ofMarchDays (days : Nat) : Date :=
  let inCycle := days % 146097
  let year := (inCycle - inCycle / 1460 + inCycle / 36524 - inCycle / 146096) / 365
  let inYear := inCycle - (365 * year + year / 4 - year / 100)
  let month := (5 * inYear + 2) / 153
  let day := inYear - (153 * month + 2) / 5 + 1
  let year := days / 146097 * 400 + year
  if month < 10 then ⟨year, month + 3, day⟩ else ⟨year + 1, month - 9, day⟩

/-- The moment with these fields, if there is one. An offset stays below a whole day. -/
def Moment.make (year month day : Nat) (time : TimeOfDay) (offset : Option Int) :
    Except CalendarError Moment := do
  if let some minutes := offset then
    if 1440 ≤ minutes.natAbs then throw (.offset minutes)
  let date ← Date.make year month day
  if 23 < time.hour then throw .hour
  if 59 < time.minute then throw .minute
  if 59 < time.second then throw .second
  return ⟨date, time, offset⟩

/-- `2024-01-31`. -/
def Date.iso (d : Date) : String :=
  padded 4 d.year ++ "-" ++ padded 2 d.month ++ "-" ++ padded 2 d.day

/-- `10:20:30`, with six decimals unless they are all zero. -/
def TimeOfDay.iso (t : TimeOfDay) : String :=
  padded 2 t.hour ++ ":" ++ padded 2 t.minute ++ ":" ++ padded 2 t.second ++
    if t.micro == 0 then "" else "." ++ padded 6 t.micro

/-- `+01:30`. -/
def offsetText (minutes : Int) : String :=
  let m := minutes.natAbs
  (if minutes < 0 then "-" else "+") ++ padded 2 (m / 60) ++ ":" ++ padded 2 (m % 60)

/-- Date, separator, time and offset. -/
def Moment.iso (m : Moment) (separator : String) : String :=
  m.date.iso ++ separator ++ m.time.iso ++ (m.offset.map offsetText).getD ""

/-- The days from 1 January of the year 0 to a date. -/
def Date.dayNumber (d : Date) : Int :=
  let before := (d.year : Int) - 1
  let leaps := before / 4 - before / 100 + before / 400
  let months := (List.range (d.month - 1)).map fun m => daysInMonth d.year (m + 1)
  before * 365 + leaps + (months.foldl (· + ·) 0 : Nat) + d.day

/-- Microseconds since the start of the calendar, in universal time if the offset is known. -/
def Moment.micros (m : Moment) : Int :=
  let minutes := (m.date.dayNumber * 24 + m.time.hour) * 60 + m.time.minute - m.offset.getD 0
  (minutes * 60 + m.time.second) * 1000000 + m.time.micro

/-- Two moments are the same point in time; one with an offset never equals one without. -/
def Moment.same (a b : Moment) : Bool :=
  a.offset.isSome == b.offset.isSome && a.micros == b.micros

/-- A duration in the notation of `CalendarError.message`: whole days and the seconds left. -/
def durationText (minutes : Int) : String :=
  let days := Int.fdiv minutes 1440
  let seconds := (minutes - days * 1440) * 60
  let parts := (if days == 0 then [] else ["days=" ++ toString days]) ++
    (if seconds == 0 then [] else ["seconds=" ++ toString seconds])
  "datetime.timedelta(" ++ (if parts.isEmpty then "0" else ", ".intercalate parts) ++ ")"

def CalendarError.message : CalendarError → String
  | .offset minutes =>
    "offset must be a timedelta strictly between -timedelta(hours=24) and " ++
      "timedelta(hours=24), not " ++ durationText minutes ++ "."
  | .year y => "year " ++ toString y ++ " is out of range"
  | .month => "month must be in 1..12"
  | .day => "day is out of range for month"
  | .hour => "hour must be in 0..23"
  | .minute => "minute must be in 0..59"
  | .second => "second must be in 0..59"

/-!
## The clock

Time is counted in milliseconds since the start, which is the first moment of the year 2024 in
universal time.
-/

namespace Clock

/-- The seconds from the start of the year 1970 to the start of the count. -/
def epoch : Nat := 1704067200

/-- The days from 1 March of the year 0 to the start of the count. -/
def startDay : Nat := 739191

/-- The seconds since the start of the year 1970. -/
def seconds (ms : Nat) : Float :=
  Float.ofNat epoch + Float.ofNat ms / 1000

/-- The date and the time. -/
def moment (ms : Nat) : Moment :=
  let s := ms / 1000
  { date := Date.ofMarchDays (startDay + s / 86400)
    time := ⟨s / 3600 % 24, s / 60 % 60, s % 60, ms % 1000 * 1000⟩
    offset := none }

/-- The date and the time, as in `2024-01-31T10:20:30`. -/
def iso (ms : Nat) : String :=
  (moment ms).iso "T"

/-- The date and the time in figures, as in `20240131-102030`. -/
def stamp (ms : Nat) : String :=
  let m := moment ms
  let two := Calendar.padded 2
  Calendar.padded 4 m.date.year ++ two m.date.month ++ two m.date.day ++ "-" ++
    two m.time.hour ++ two m.time.minute ++ two m.time.second

end Clock

end BrowserFlow
