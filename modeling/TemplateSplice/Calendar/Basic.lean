import TemplateSplice.Text.Digit

/-! Days and times of the Gregorian calendar, and the texts that messages show for them. Two times
with offsets from universal time are the same instant if they are the same number of microseconds. -/
namespace TemplateSplice

/-- A day of the calendar. -/
structure Date where
  year : Nat
  month : Nat
  day : Nat
  deriving DecidableEq, Repr

/-- A time of a day. -/
structure TimeOfDay where
  hour : Nat
  minute : Nat
  second : Nat
  microsecond : Nat
  deriving DecidableEq, Repr

/-- A time on a day. -/
structure Moment where
  date : Date
  time : TimeOfDay
  /-- The seconds by which a clock is ahead of universal time, if that is known. -/
  offset : Option Int
  deriving DecidableEq, Repr

/-- Why numbers make no day or time. -/
inductive CalendarFault where
  /-- An offset of a day or more, in seconds. -/
  | offset (seconds : Int)
  | year
  | month
  | day
  | hour
  | minute
  | second
  deriving DecidableEq, Repr

/-- The seconds of a day. -/
def daySeconds : Nat := 86400

namespace Date

def isLeap (year : Nat) : Bool := year % 4 == 0 && (year % 100 != 0 || year % 400 == 0)

/-- The number of days in a month. -/
def monthLength (year month : Nat) : Nat :=
  if month = 2 then (if isLeap year then 29 else 28)
  else if month = 4 ∨ month = 6 ∨ month = 9 ∨ month = 11 then 30
  else 31

/-- The day that three numbers give; there is no year zero. -/
def of (year month day : Nat) : Except CalendarFault Date :=
  if year = 0 then .error .year
  else if month = 0 ∨ 12 < month then .error .month
  else if day = 0 ∨ monthLength year month < day then .error .day
  else .ok ⟨year, month, day⟩

/-- The days before a year. -/
def daysBefore (year : Nat) : Nat :=
  let y := year - 1
  y * 365 + y / 4 - y / 100 + y / 400

/-- The number of a day; the first day of the year one has the number one. -/
def number (d : Date) : Nat :=
  (List.range (d.month - 1)).foldl (fun days m => days + monthLength d.year (m + 1))
    (daysBefore d.year) + d.day

/-- The day as year, month and day with hyphens between them. -/
def text (d : Date) : Text :=
  paddedDigits 4 d.year ++ '-' :: paddedDigits 2 d.month ++ '-' :: paddedDigits 2 d.day

/-- The literal of a day. -/
def literal (d : Date) : Text :=
  "datetime.date(".toList ++
    Text.joinWith [',', ' '] ([d.year, d.month, d.day].map decimalDigits) ++ [')']

end Date

namespace TimeOfDay

/-- The time that numbers give. -/
def of (hour minute second microsecond : Nat) : Except CalendarFault TimeOfDay :=
  if 23 < hour then .error .hour
  else if 59 < minute then .error .minute
  else if 59 < second then .error .second
  else .ok ⟨hour, minute, second, microsecond⟩

/-- The seconds since midnight. -/
def seconds (t : TimeOfDay) : Nat := (t.hour * 60 + t.minute) * 60 + t.second

def text (t : TimeOfDay) : Text :=
  let fraction := if t.microsecond = 0 then [] else '.' :: paddedDigits 6 t.microsecond
  paddedDigits 2 t.hour ++ ':' :: paddedDigits 2 t.minute ++ ':' :: paddedDigits 2 t.second ++
    fraction

end TimeOfDay

/-- The literal of a span of seconds: whole days, and the seconds after them. -/
def spanLiteral (seconds : Int) : Text :=
  let days := seconds / daySeconds
  let rest := (seconds % daySeconds).toNat
  let dayDigits := (if days < 0 then ['-'] else []) ++ decimalDigits days.natAbs
  let parts := (if days = 0 then [] else ["days=".toList ++ dayDigits]) ++
    (if rest = 0 then [] else ["seconds=".toList ++ decimalDigits rest])
  "datetime.timedelta(".toList ++
    (if parts = [] then ['0'] else Text.joinWith [',', ' '] parts) ++ [')']

namespace Moment

/-- The time with an offset, which must be less than a day. -/
def checkedOffset (seconds : Int) : Except CalendarFault Int :=
  if seconds.natAbs < daySeconds then .ok seconds else .error (.offset seconds)

/-- The microseconds on the clock since the start of the calendar. -/
def clock (m : Moment) : Int :=
  ((m.date.number * daySeconds + m.time.seconds) * 1000000 + m.time.microsecond : Nat)

/-- The microseconds of universal time, for a clock with an offset. -/
def instant (m : Moment) (offset : Int) : Int := m.clock - offset * 1000000

/-- An offset as hours and minutes after a sign. -/
def offsetText (offset : Int) : Text :=
  let minutes := offset.natAbs / 60
  (if offset < 0 then '-' else '+') :: paddedDigits 2 (minutes / 60) ++
    ':' :: paddedDigits 2 (minutes % 60)

def text (m : Moment) : Text :=
  m.date.text ++ ' ' :: m.time.text ++ (m.offset.map offsetText).getD []

/-- The literal of a zone with an offset. -/
def zoneLiteral (offset : Int) : Text :=
  if offset = 0 then "datetime.timezone.utc".toList
  else "datetime.timezone(".toList ++ spanLiteral offset ++ [')']

/-- The literal of a moment. Seconds and microseconds are left out where they are zero and nothing
follows them. -/
def literal (m : Moment) : Text :=
  let fine :=
    if m.time.microsecond ≠ 0 then [m.time.second, m.time.microsecond]
    else if m.time.second ≠ 0 then [m.time.second]
    else []
  let numbers := [m.date.year, m.date.month, m.date.day, m.time.hour, m.time.minute] ++ fine
  let zone := (m.offset.map fun offset => ", tzinfo=".toList ++ zoneLiteral offset).getD []
  "datetime.datetime(".toList ++ Text.joinWith [',', ' '] (numbers.map decimalDigits) ++ zone ++ [')']

end Moment

/-- What is wrong with numbers that make no day or time. -/
def CalendarFault.message : CalendarFault → String
  | offset seconds =>
    let span := String.ofList (spanLiteral seconds)
    "offset must be a timedelta strictly between -timedelta(hours=24) and timedelta(hours=24), " ++
      s!"not {span}."
  | year => "year 0 is out of range"
  | month => "month must be in 1..12"
  | day => "day is out of range for month"
  | hour => "hour must be in 0..23"
  | minute => "minute must be in 0..59"
  | second => "second must be in 0..59"

end TemplateSplice
