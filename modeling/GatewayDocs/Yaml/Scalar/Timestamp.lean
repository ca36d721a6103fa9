import GatewayDocs.Text.Blank
import GatewayDocs.Value.Failure
import GatewayDocs.Value.Stamp

/-! # Timestamps in YAML

A timestamp is a date of the form `2001-12-14`, or a date and a time of day with a fraction
of a second and an offset from universal time, which may both be missing. -/

namespace GatewayDocs.Yaml.Timestamp
open Decimal

/-- The parts of a time of day as they are written. -/
structure TimeParts where
  hour : Nat
  minute : Nat
  second : Nat
  fraction : List Char
  offset : Option Int

/-- The parts of a timestamp as they are written. -/
structure Parts where
  year : Nat
  month : Nat
  day : Nat
  time : Option TimeParts

/-- Takes a number of exactly so many digits. -/
def exactly? (count : Nat) (cs : List Char) : Option (Nat × List Char) :=
  let ds := cs.take count
  if ds.length = count && ds.all isDigit then some (ofDigits 10 ds, cs.drop count) else none

/-- Takes a number of one digit or two. -/
def short? (cs : List Char) : Option (Nat × List Char) :=
  (exactly? 2 cs).or (exactly? 1 cs)

/-- Takes a number of two digits after a character. -/
def afterMark? (mark : Char) (read : List Char → Option (Nat × List Char)) :
    List Char → Option (Nat × List Char)
  | c :: rest => if c = mark then read rest else none
  | [] => none

/-- A blank between the parts of a timestamp. -/
def isGap (c : Char) : Bool := c = ' ' || c = '\t'

/-- Passes over what separates a date from a time of day. -/
def afterSeparator? : List Char → Option (List Char)
  | c :: rest =>
    if c = 'T' || c = 't' then some rest
    else if isGap c then some (rest.dropWhile isGap) else none
  | [] => none

/-- Reads an offset in minutes, to the end. -/
def offset? (cs : List Char) : Option Int := do
  match cs with
  | ['Z'] => return 0
  | sign :: rest =>
    guard (sign = '+' || sign = '-')
    let (hours, rest) ← short? rest
    let (minutes, rest) ←
      if rest.isEmpty then pure (0, []) else afterMark? ':' (exactly? 2) rest
    guard rest.isEmpty
    let n : Int := hours * 60 + minutes
    return if sign = '-' then -n else n
  | [] => none

/-- Reads a time of day, to the end. -/
def time? (cs : List Char) : Option TimeParts := do
  let (hour, rest) ← short? cs
  let (minute, rest) ← afterMark? ':' (exactly? 2) rest
  let (second, rest) ← afterMark? ':' (exactly? 2) rest
  let (fraction, rest) : List Char × List Char :=
    match rest with
    | '.' :: rest => rest.span isDigit
    | _ => ([], rest)
  let offset ← if rest.isEmpty then pure none else some <$> offset? (rest.dropWhile isGap)
  return ⟨hour, minute, second, fraction, offset⟩

/-- Reads a timestamp; a line feed may follow it. -/
def parts? (cs : List Char) : Option Parts := do
  let (year, rest) ← exactly? 4 (Text.chomp cs)
  let (month, rest) ← afterMark? '-' short? rest
  let (day, rest) ← afterMark? '-' short? rest
  if rest.isEmpty then return ⟨year, month, day, none⟩
  let time ← time? (← afterSeparator? rest)
  return ⟨year, month, day, some time⟩

/-- Whether a plain scalar is a timestamp; a date alone has two digits for month and day. -/
def isTimestamp (cs : List Char) : Bool :=
  match parts? cs with
  | some p => p.time.isSome || (Text.chomp cs).length = 10
  | none => false

/-! ### Checking -/

/-- Fails unless a condition holds. -/
def require (condition : Bool) (fault : StampFault) : Result Unit :=
  if condition then .ok () else .error (.notStamp fault)

/-- Checks that a date is one of the calendar. -/
def checkDate (p : Parts) : Result Unit := do
  require (0 < p.year) (.year p.year)
  require (0 < p.month && p.month ≤ 12) .month
  require (0 < p.day && p.day ≤ Stamp.daysIn p.year p.month) .day

/-- Checks that an offset is less than a day. -/
def checkOffset (minutes : Int) : Result Unit :=
  require (-Stamp.dayMinutes < minutes && minutes < Stamp.dayMinutes) (.offset minutes)

/-- Checks that a time of day is one of the clock. -/
def checkTime (t : TimeParts) : Result Unit := do
  require (t.hour < 24) .hour
  require (t.minute < 60) .minute
  require (t.second < 60) .second

/-- The time of day that the parts tell; a fraction is cut after six places. -/
def timeOf (t : TimeParts) : TimeOfDay :=
  let places := t.fraction.take 6
  { hour := t.hour, minute := t.minute, second := t.second,
    micro := ofDigits 10 (places ++ List.replicate (6 - places.length) '0'),
    offset := t.offset }

/-- The stamp that a text denotes. -/
def stampOf (s : String) : Result Stamp := do
  match parts? s.toList with
  | none => throw .badShape
  | some p =>
    match p.time with
    | none =>
      checkDate p
      return ⟨p.year, p.month, p.day, none⟩
    | some t =>
      (t.offset.map checkOffset).getD (.ok ())
      checkDate p
      checkTime t
      return ⟨p.year, p.month, p.day, some (timeOf t)⟩

end GatewayDocs.Yaml.Timestamp
