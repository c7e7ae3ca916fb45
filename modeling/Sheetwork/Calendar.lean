import Sheetwork.Text.Basic
/-
  Calendar: dates of the proleptic Gregorian calendar, times of day to the microsecond, and the days counted from the
  first of January of the year one, which is day 1.
-/

namespace Sheetwork

structure Date where
  (year month day : Nat)
  deriving DecidableEq

structure TimeOfDay where
  (hour minute second micro : Nat)
  /-- How far the clock of a time zone is ahead, in microseconds. -/
  zone : Option Int := none
  deriving DecidableEq

structure DateTime where
  date : Date
  time : TimeOfDay
  deriving DecidableEq

namespace Calendar

def isLeap (y : Nat) : Bool := y % 4 = 0 && (y % 100 ≠ 0 || y % 400 = 0)

def daysInMonth (y m : Nat) : Nat :=
  if m = 2 then if isLeap y then 29 else 28
  else if m = 4 || m = 6 || m = 9 || m = 11 then 30 else 31

def daysBeforeYear (y : Nat) : Nat :=
  let p := y - 1
  p * 365 + p / 4 - p / 100 + p / 400

def daysBeforeMonth (y : Nat) : Nat → Nat
  | 0 => 0
  | 1 => 0
  | m + 1 => daysBeforeMonth y m + daysInMonth y m

def maxYear : Nat := 9999

def isValid (y m d : Nat) : Bool := 1 ≤ y && y ≤ maxYear && 1 ≤ m && m ≤ 12 && 1 ≤ d && d ≤ daysInMonth y m

def pad (width n : Nat) : String := Text.padLeft width '0' (Text.ofNat n)

end Calendar

open Calendar

namespace Date

def ofParts? (y m d : Nat) : Option Date := if isValid y m d then some ⟨y, m, d⟩ else none

variable (t : Date)

/-- The day's number, the first of January of the year one being 1. -/
def ordinal : Nat := daysBeforeYear t.year + daysBeforeMonth t.year t.month + t.day

def monthDay (y : Nat) : Nat → Nat → Nat → Nat × Nat
  | 0, m, n => (m, n + 1)
  | fuel + 1, m, n =>
    if n < daysInMonth y m then (m, n + 1) else monthDay y fuel (m + 1) (n - daysInMonth y m)

/-- The year that holds day `n` (from 0), from a guess that is at most three years early. -/
def yearOf (n : Nat) : Nat → Nat → Nat
  | 0, y => y
  | fuel + 1, y => if n < daysBeforeYear (y + 1) then y else yearOf n fuel (y + 1)

def ofOrdinal? (n : Int) : Option Date :=
  if n < 1 || (daysBeforeYear (maxYear + 1) : Int) < n then none
  else
    let k := n.toNat - 1
    let y := yearOf k 8 (max 1 (k * 400 / 146097 - 1))
    let (m, d) := monthDay y 12 1 (k - daysBeforeYear y)
    some ⟨y, m, d⟩

def addDays? (n : Int) : Option Date := ofOrdinal? (t.ordinal + n)

def weekday : Nat := (t.ordinal + 6) % 7

def iso : String := pad 4 t.year ++ "-" ++ pad 2 t.month ++ "-" ++ pad 2 t.day

def key : List Nat := [t.year, t.month, t.day]

end Date

namespace TimeOfDay

def midnight : TimeOfDay := { hour := 0, minute := 0, second := 0, micro := 0 }

variable (t : TimeOfDay)

def micros : Nat := ((t.hour * 60 + t.minute) * 60 + t.second) * 1000000 + t.micro

def ofMicros (n : Nat) : TimeOfDay :=
  { hour := n / 3600000000, minute := n / 60000000 % 60, second := n / 1000000 % 60
    micro := n % 1000000 }

def ofParts? (h m s u : Nat) : Option TimeOfDay :=
  if h < 24 && m < 60 && s < 60 && u < 1000000 then some { hour := h, minute := m, second := s, micro := u }
  else none

def microText : String := if t.micro = 0 then "" else "." ++ pad 6 t.micro

/-- How far a zone is ahead as hours and minutes; seconds only where there are some. -/
def zoneText (zone : Int) : String :=
  let t := ofMicros zone.natAbs
  (if zone < 0 then "-" else "+") ++ pad 2 t.hour ++ ":" ++ pad 2 t.minute ++
    (if t.second = 0 && t.micro = 0 then "" else ":" ++ pad 2 t.second ++ t.microText)

def iso : String :=
  pad 2 t.hour ++ ":" ++ pad 2 t.minute ++ ":" ++ pad 2 t.second ++ t.microText ++ t.zone.elim "" zoneText

def key : List Nat := [t.hour, t.minute, t.second, t.micro]

/-- Microseconds since midnight on the clock of no zone. -/
def instant : Int := t.micros - t.zone.getD 0

def same (t u : TimeOfDay) : Bool := if t.zone.isSome && u.zone.isSome then t.instant = u.instant else t = u

end TimeOfDay

namespace DateTime

def isoWith (sep : String) (t : DateTime) : String := t.date.iso ++ sep ++ t.time.iso

variable (t : DateTime)

def iso : String := t.isoWith "T"

def key : List Nat := t.date.key ++ t.time.key

def dayMicros : Nat := 86400000000

def micros : Int := t.date.ordinal * dayMicros + t.time.micros

def ofMicros? (n : Int) : Option DateTime :=
  (Date.ofOrdinal? (n / dayMicros)).map fun d => ⟨d, TimeOfDay.ofMicros (n % dayMicros).toNat⟩

def add? (n : Int) : Option DateTime :=
  (ofMicros? (t.micros + n)).map fun u => { u with time := { u.time with zone := t.time.zone } }

def instant : Int := t.micros - t.time.zone.getD 0

def same (t u : DateTime) : Bool := if t.time.zone.isSome && u.time.zone.isSome then t.instant = u.instant else t = u

end DateTime

def Calendar.clock : DateTime := ⟨⟨2020, 1, 2⟩, { hour := 3, minute := 4, second := 5, micro := 0 }⟩

end Sheetwork

/-! Dates and times of the international standard. Hyphens and colons may be left
out, a date may count weeks, what comes last in a time may be missing, and a time may end with its
zone. Every scanner takes exactly the digits it needs and gives the rest. -/

namespace Sheetwork.Calendar

def digits? (n : Nat) (s : List Char) : Option (Nat × List Char) :=
  let ds := s.take n
  if ds.length = n && ds.all Text.isAsciiDigit then some (Text.natOfDigits ds, s.drop n) else none

/-- The day of a week of a year; the first week is the one with the fourth of January. -/
def weekDate? (y w d : Nat) : Option Date := do
  let first ← Date.ofParts? y 1 4
  let monday : Int := (first.ordinal : Int) - first.weekday
  let thursday ← Date.ofOrdinal? (monday + 7 * ((w : Int) - 1) + 3)
  if 1 ≤ w && thursday.year = y && 1 ≤ d && d ≤ 7 then
    Date.ofOrdinal? (monday + 7 * ((w : Int) - 1) + ((d : Int) - 1))
  else none

variable (s : List Char)

/-- A year and a month and a day, or a year, a week and a day of it, with hyphens or without; what
follows does not count. -/
def isoDateL? : Option Date := do
  let (y, r) ← digits? 4 s
  let (apart, r) := match r with
    | '-' :: r => (true, r)
    | r => (false, r)
  let hyphen? := fun (r : List Char) => match apart, r with
    | true, '-' :: r => some r
    | true, _ => none
    | false, r => some r
  match r with
  | 'W' :: r =>
    let (w, r) ← digits? 2 r
    if r.isEmpty then weekDate? y w 1
    else
      let (d, _) ← digits? 1 (← hyphen? r)
      weekDate? y w d
  | r =>
    let (m, r) ← digits? 2 r
    let (d, _) ← digits? 2 (← hyphen? r)
    Date.ofParts? y m d

def isoDate? (s : String) : Option Date := if [7, 8, 10].contains s.length then isoDateL? s.toList else none

/-- What a clock shows, and whether the text ends there. -/
structure Reading where
  fields : List Nat
  micro : Nat
  ends : Bool

namespace Reading

def fraction? (s : List Char) : Option Reading :=
  let ds := s.take 6
  if ds.all Text.isAsciiDigit then
    some ⟨[], Text.natOfDigits ((ds ++ List.replicate 6 '0').take 6), ((s.drop 6).dropWhile Text.isAsciiDigit).isEmpty⟩
  else none

/-- The remaining fields of two digits, with colons or without, and a fraction after any of them. -/
def rest? (apart : Bool) : Nat → List Char → Option Reading
  | 0, s => fraction? s
  | k + 1, s => do
    let (n, r) ← digits? 2 s
    match r with
    | [] => some ⟨[n], 0, true⟩
    | [_] => some ⟨[n], 0, false⟩
    | c :: r' =>
      let more ←
        if apart && c = ':' then rest? apart k r'
        else if c = '.' || c = ',' then fraction? r'
        else if apart then none
        else rest? apart k r
      some { more with fields := n :: more.fields }

/-- Hours, minutes and seconds; what follows the hours decides about colons. -/
def ofText? (s : List Char) : Option Reading := rest? (s[2]? = some ':') 3 s

variable (r : Reading)

def field (i : Nat) : Nat := (r.fields[i]?).getD 0

def time? : Option TimeOfDay := TimeOfDay.ofParts? (r.field 0) (r.field 1) (r.field 2) r.micro

def micros : Nat := ((r.field 0 * 60 + r.field 1) * 60 + r.field 2) * 1000000 + r.micro

end Reading

/-- How far a zone is ahead: `Z`, or a sign and a clock, less than a day. -/
def isoZone? : Option Int :=
  match s with
  | ['Z'] => some 0
  | c :: r =>
    if c = '+' || c = '-' then do
      let ahead ← Reading.ofText? r
      if ahead.ends && ahead.micros < DateTime.dayMicros then
        some (if c = '-' then -ahead.micros else ahead.micros)
      else none
    else none
  | [] => none

def isoTimeL? : Option TimeOfDay := do
  let isZone (c : Char) := c = '+' || c = '-' || c = 'Z'
  let clock ← Reading.ofText? (s.takeWhile fun c => !isZone c)
  let t ← clock.time?
  match s.dropWhile fun c => !isZone c with
  | [] => if clock.ends then some t else none
  | zone => do pure { t with zone := some (← isoZone? zone) }

def isoTime? (s : String) : Option TimeOfDay :=
  match s.toList with
  | 'T' :: r => isoTimeL? r
  | r => isoTimeL? r

def isoDateLength : Nat :=
  if s.length = 7 then 7
  else match s.drop 4 with
    | '-' :: 'W' :: _ =>
      if s[8]? = some '-' then if (s[10]?).any Text.isAsciiDigit then 8 else 10 else 8
    | '-' :: _ => 10
    | 'W' :: _ =>
      let n := 7 + ((s.drop 7).takeWhile Text.isAsciiDigit).length
      if n < 9 then n else if n % 2 = 0 then 7 else 8
    | _ => 8

def isoDateTime? (s : String) : Option DateTime := do
  let cs := s.toList
  let n := isoDateLength cs
  let d ← isoDateL? (cs.take n)
  match cs.drop n with
  | [] => some ⟨d, TimeOfDay.midnight⟩
  | _ :: r => do pure ⟨d, ← isoTimeL? r⟩

end Sheetwork.Calendar
