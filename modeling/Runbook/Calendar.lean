import Runbook.Number.Integer

/-!
# Dates and times

Days of the calendar from year 1 to year 9999, times of a day to the microsecond with an optional
offset from universal time, the faults of fields out of range, and the written forms.
-/

namespace Runbook.Calendar

/-- A day. -/
structure Date where
  /-- The year. -/
  year : Nat
  /-- The month, from 1. -/
  month : Nat
  /-- The day of the month, from 1. -/
  day : Nat
  deriving DecidableEq, Repr, Inhabited

/-- A time of a day. -/
structure DateTime where
  /-- The day. -/
  date : Date
  /-- The hour. -/
  hour : Nat
  /-- The minute. -/
  minute : Nat
  /-- The second. -/
  second : Nat
  /-- The microsecond. -/
  microsecond : Nat
  /-- How many minutes the clock is ahead of universal time, if that is known. -/
  offset : Option Int
  deriving DecidableEq, Repr, Inhabited

/-- Why fields make no date or time. -/
inductive Fault where
  /-- The year is not between 1 and 9999. -/
  | year (year : Nat)
  /-- The month is not between 1 and 12. -/
  | month
  /-- The month has no such day. -/
  | day
  /-- The hour is not below 24. -/
  | hour
  /-- The minute is not below 60. -/
  | minute
  /-- The second is not below 60. -/
  | second
  /-- The offset, in minutes, is a day or more. -/
  | offset (minutes : Int)
  deriving DecidableEq, Repr

/-- The days of a month. -/
def daysOfMonth (year month : Nat) : Nat :=
  let leap := year % 4 = 0 ∧ (year % 100 ≠ 0 ∨ year % 400 = 0)
  if month = 2 then (if leap then 29 else 28)
  else if month = 4 ∨ month = 6 ∨ month = 9 ∨ month = 11 then 30 else 31

/-- A day from its fields. -/
def Date.ofFields (year month day : Nat) : Except Fault Date :=
  if year < 1 ∨ 9999 < year then .error (.year year)
  else if month < 1 ∨ 12 < month then .error .month
  else if day < 1 ∨ daysOfMonth year month < day then .error .day
  else .ok ⟨year, month, day⟩

/-- A time from its fields. -/
def DateTime.ofFields (year month day hour minute second microsecond : Nat)
    (offset : Option Int) : Except Fault DateTime := do
  let date ← Date.ofFields year month day
  -- The fields are looked at from the greatest to the smallest.
  if 23 < hour then throw .hour
  if 59 < minute then throw .minute
  if 59 < second then throw .second
  return ⟨date, hour, minute, second, microsecond, offset⟩

/-- Digits of a number, filled with zeros in front. -/
def padded (width n : Nat) : String :=
  let digits := Number.decimal n
  String.ofList (List.replicate (width - digits.length) '0' ++ digits)

/-- A day as year, month and day. -/
def Date.text (d : Date) : String :=
  s!"{padded 4 d.year}-{padded 2 d.month}-{padded 2 d.day}"

/-- An offset as sign, hours and minutes. -/
def offsetText (minutes : Int) : String :=
  let sign := if minutes < 0 then "-" else "+"
  s!"{sign}{padded 2 (minutes.natAbs / 60)}:{padded 2 (minutes.natAbs % 60)}"

/-- A time after its day and a separator; microseconds are written when there are any. -/
def DateTime.text (separator : String) (t : DateTime) : String :=
  let clock := s!"{padded 2 t.hour}:{padded 2 t.minute}:{padded 2 t.second}"
  let fraction := if t.microsecond = 0 then "" else s!".{padded 6 t.microsecond}"
  let offset := match t.offset with
    | none => ""
    | some minutes => offsetText minutes
  t.date.text ++ separator ++ clock ++ fraction ++ offset

/-- A length of time in minutes as days and the seconds that remain. -/
def durationFields (minutes : Int) : String :=
  let days := minutes.fdiv 1440
  let seconds := minutes.fmod 1440 * 60
  if days = 0 ∧ seconds = 0 then "0"
  else if seconds = 0 then s!"days={days}"
  else if days = 0 then s!"seconds={seconds}"
  else s!"days={days}, seconds={seconds}"

/-- A length of time in minutes as a constructor call. -/
def durationCall (minutes : Int) : String :=
  s!"datetime.timedelta({durationFields minutes})"

/-- A day as a constructor call. -/
def Date.call (d : Date) : String :=
  s!"datetime.date({d.year}, {d.month}, {d.day})"

/-- A time as a constructor call, with as few fields as tell it. -/
def DateTime.call (t : DateTime) : String :=
  let seconds :=
    if t.microsecond ≠ 0 then s!", {t.second}, {t.microsecond}"
    else if t.second ≠ 0 then s!", {t.second}" else ""
  let zone := match t.offset with
    | none => ""
    | some 0 => ", tzinfo=datetime.timezone.utc"
    | some minutes => s!", tzinfo=datetime.timezone({durationCall minutes})"
  let day := s!"{t.date.year}, {t.date.month}, {t.date.day}"
  s!"datetime.datetime({day}, {t.hour}, {t.minute}{seconds}{zone})"

/-- The wording of a fault. -/
def Fault.message : Fault → String
  | .year y => s!"year {y} is out of range"
  | .month => "month must be in 1..12"
  | .day => "day is out of range for month"
  | .hour => "hour must be in 0..23"
  | .minute => "minute must be in 0..59"
  | .second => "second must be in 0..59"
  | .offset minutes =>
    "offset must be a timedelta strictly between -timedelta(hours=24) and timedelta(hours=24), " ++
      s!"not {durationCall minutes}."

/-- The number of days before a day, counted from the first day of year 1. -/
def Date.ordinal (d : Date) : Nat :=
  let before := d.year - 1
  let months := (List.range (d.month - 1)).foldl (fun n m => n + daysOfMonth d.year (m + 1)) 0
  before * 365 + before / 4 - before / 100 + before / 400 + months + d.day

/-- Microseconds since the first day of year 1, by universal time when the offset is known. -/
def DateTime.instant (t : DateTime) : Int :=
  let minutes : Int := (t.date.ordinal * 1440 + t.hour * 60 + t.minute : Nat) - t.offset.getD 0
  (minutes * 60 + t.second) * 1000000 + t.microsecond

/-- The same moment: by universal time if both offsets are known, by the clock if neither is. -/
def DateTime.sameMoment (t u : DateTime) : Bool :=
  t.offset.isSome == u.offset.isSome && t.instant == u.instant

end Runbook.Calendar
