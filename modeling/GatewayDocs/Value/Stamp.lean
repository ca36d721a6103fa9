import GatewayDocs.Decimal.Digits

/-! # Calendar dates and times

A stamp is a calendar date, with or without a time of day.  `Stamp.text` writes it in the
order year, month, day; a time of day follows after a space.  Stamps are the `same` if they are
one instant.  Numbers that are out of their range make no stamp (`StampFault`). -/

namespace GatewayDocs

/-- A time of day, to the microsecond, with the offset from universal time in minutes. -/
structure TimeOfDay where
  hour : Nat
  minute : Nat
  second : Nat
  micro : Nat
  offset : Option Int
deriving DecidableEq

/-- A calendar date, with or without a time of day. -/
structure Stamp where
  year : Nat
  month : Nat
  day : Nat
  time : Option TimeOfDay
deriving DecidableEq

namespace Stamp
open Decimal

/-- A leap year of the Gregorian calendar. -/
def isLeap (year : Nat) : Bool := year % 4 = 0 && (year % 100 ≠ 0 || year % 400 = 0)

/-- The number of days of a month. -/
def daysIn (year month : Nat) : Nat :=
  if month = 2 then (if isLeap year then 29 else 28)
  else if month = 4 || month = 6 || month = 9 || month = 11 then 30
  else 31

/-- The number of days of the years before a year. -/
def daysBeforeYear (year : Nat) : Nat :=
  let n := year - 1
  n * 365 + n / 4 - n / 100 + n / 400

/-- The number of days of a year before a month. -/
def daysBeforeMonth (year month : Nat) : Nat :=
  (List.range (month - 1)).foldl (fun n m => n + daysIn year (m + 1)) 0

/-- The number of a date among all days. -/
def dayNumber (s : Stamp) : Nat :=
  daysBeforeYear s.year + daysBeforeMonth s.year s.month + s.day

/-- The microseconds of a date and a time of day, by the clock of universal time if the offset
from it is known. -/
def micros (s : Stamp) (t : TimeOfDay) : Int :=
  let minutes : Int := s.dayNumber * 1440 + t.hour * 60 + t.minute - t.offset.getD 0
  (minutes * 60 + t.second) * 1000000 + t.micro

/-- Equality as data: times of day with offsets are equal if they are the same instant. -/
def same (a b : Stamp) : Bool :=
  match a.time, b.time with
  | some t, some u =>
    t.offset.isSome = u.offset.isSome && micros a t = micros b u
  | _, _ => a = b

/-- Two digits of a number. -/
def two (n : Nat) : List Char := padded 2 (natDigits n)

/-- An offset from universal time: sign, hours and minutes. -/
def offsetText (minutes : Int) : List Char :=
  let n := minutes.natAbs
  (if minutes < 0 then '-' else '+') :: two (n / 60) ++ ':' :: two (n % 60)

/-- A time of day, with six places of a second if they are not all zero. -/
def timeText (t : TimeOfDay) : List Char :=
  two t.hour ++ ':' :: two t.minute ++ ':' :: two t.second ++
    (if t.micro = 0 then [] else '.' :: padded 6 (natDigits t.micro)) ++
    (t.offset.map offsetText).getD []

/-- A date, and after a space the time of day. -/
def text (s : Stamp) : String :=
  let date := padded 4 (natDigits s.year) ++ '-' :: two s.month ++ '-' :: two s.day
  String.ofList (date ++ (s.time.map fun t => ' ' :: timeText t).getD [])

/-- The number of minutes of a day. -/
def dayMinutes : Int := 1440

/-- Numbers separated by a comma and a space. -/
def numbers (ns : List Nat) : String := ", ".intercalate (ns.map fun (n : Nat) => intText n)

/-- An offset from universal time as days and seconds. -/
def offsetQuoted (minutes : Int) : String :=
  if minutes = 0 then "datetime.timezone.utc"
  else
    let seconds := 60 * minutes
    let parts :=
      if seconds < 0 then "days=-1, seconds=" ++ intText (86400 + seconds)
      else "seconds=" ++ intText seconds
    "datetime.timezone(datetime.timedelta(" ++ parts ++ "))"

/-- A stamp inside a quoted list or object. -/
def quoted (s : Stamp) : String :=
  match s.time with
  | none => "datetime.date(" ++ numbers [s.year, s.month, s.day] ++ ")"
  | some t =>
    let seconds :=
      if t.micro ≠ 0 then [t.second, t.micro]
      else if t.second ≠ 0 then [t.second] else []
    let zone := (t.offset.map fun o => ", tzinfo=" ++ offsetQuoted o).getD ""
    "datetime.datetime(" ++ numbers ([s.year, s.month, s.day, t.hour, t.minute] ++ seconds) ++
      zone ++ ")"

/-- A span of time as days and the rest of it in seconds. -/
def spanText (minutes : Int) : String :=
  let seconds := 60 * Int.emod minutes dayMinutes
  "datetime.timedelta(days=" ++ intText (minutes / dayMinutes) ++
    (if seconds = 0 then "" else ", seconds=" ++ intText seconds) ++ ")"

end Stamp

/-- What keeps numbers from being a date and a time of day. -/
inductive StampFault where
  | year (n : Nat)
  | month
  | day
  | hour
  | minute
  | second
  | offset (minutes : Int)

namespace StampFault
open Decimal

/-- The wording of a fault. -/
def text : StampFault → String
  | year n => "year " ++ intText n ++ " is out of range"
  | month => "month must be in 1..12"
  | day => "day is out of range for month"
  | hour => "hour must be in 0..23"
  | minute => "minute must be in 0..59"
  | second => "second must be in 0..59"
  | offset minutes =>
    "offset must be a timedelta strictly between -timedelta(hours=24) and " ++
      "timedelta(hours=24), not " ++ Stamp.spanText minutes ++ "."

end StampFault
end GatewayDocs
