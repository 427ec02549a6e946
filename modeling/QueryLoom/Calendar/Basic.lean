import QueryLoom.Text.Basic

/-!
# Dates and times

Days of the Gregorian calendar, extended in both directions without a year missing, and times of
day with nanoseconds. Days are counted from the first of January 2000. A leap second is the
sixtieth second of a minute, written as the last ordinary one with a second and more of
nanoseconds.
-/

set_option autoImplicit false

namespace QueryLoom

structure Date where
  year : Int
  month : Nat
  day : Nat
  deriving DecidableEq, Repr, Inhabited

/-- A time of day; `nano` reaches a whole second in a leap second only. -/
structure Time where
  hour : Nat
  minute : Nat
  second : Nat
  nano : Nat
  deriving DecidableEq, Repr, Inhabited

structure DateTime where
  date : Date
  time : Time
  deriving DecidableEq, Repr, Inhabited

namespace Date

def isLeapYear (year : Int) : Bool := year % 4 == 0 && (year % 100 != 0 || year % 400 == 0)

def monthLength (year : Int) : Nat → Nat
  | 2 => if isLeapYear year then 29 else 28
  | 4 => 30
  | 6 => 30
  | 9 => 30
  | 11 => 30
  | _ => 31

def minYear : Int := -262143

def maxYear : Int := 262142

def isValid (d : Date) : Bool :=
  minYear ≤ d.year && d.year ≤ maxYear && 1 ≤ d.month && d.month ≤ 12 &&
    1 ≤ d.day && d.day ≤ monthLength d.year d.month

/-- Days before the first day of a year that begins in March, from the first of March of year
zero; such a year ends with the leap day. -/
def daysBeforeMarchYear (y : Int) : Int := 365 * y + y / 4 - y / 100 + y / 400

/-- Days before a month of a year that begins in March, which is month zero. -/
def daysBeforeMonth (m : Nat) : Nat := (153 * m + 2) / 5

/-- Days from the first of March of year zero to the first of January 2000. -/
def epoch : Int := 730425

def toDays (d : Date) : Int :=
  let marchYear := if d.month ≤ 2 then d.year - 1 else d.year
  let marchMonth := if d.month ≤ 2 then d.month + 9 else d.month - 3
  daysBeforeMarchYear marchYear + daysBeforeMonth marchMonth + (d.day : Int) - 1 - epoch

/-- The date that lies the given days after the first of January 2000. A cycle of four hundred
years has 146097 days. -/
def ofDays (days : Int) : Date :=
  let n := days + epoch
  let cycle := n / 146097
  let dayOfCycle := (n % 146097).toNat
  let yearOfCycle :=
    (dayOfCycle - dayOfCycle / 1460 + dayOfCycle / 36524 - dayOfCycle / 146096) / 365
  let dayOfYear := dayOfCycle - (365 * yearOfCycle + yearOfCycle / 4 - yearOfCycle / 100)
  let marchMonth := (5 * dayOfYear + 2) / 153
  let day := dayOfYear - daysBeforeMonth marchMonth + 1
  let marchYear := 400 * cycle + yearOfCycle
  if marchMonth < 10 then ⟨marchYear, marchMonth + 3, day⟩
  else ⟨marchYear + 1, marchMonth - 9, day⟩

def yearText (year : Int) : String :=
  let digits := Text.paddedNatural 4 year.natAbs
  if year < 0 then "-" ++ digits else if 9999 < year then "+" ++ digits else digits

def text (d : Date) : String :=
  yearText d.year ++ "-" ++ Text.paddedNatural 2 d.month ++ "-" ++ Text.paddedNatural 2 d.day

end Date

namespace Time

def nanosPerSecond : Nat := 1000000000

def isValid (t : Time) : Bool :=
  t.hour < 24 && t.minute < 60 && t.second < 60 &&
    (t.nano < nanosPerSecond || (t.second == 59 && t.nano < 2 * nanosPerSecond))

def nanosOfDay (t : Time) : Nat :=
  (3600 * t.hour + 60 * t.minute + t.second) * nanosPerSecond + t.nano

def ofNanosOfDay (n : Nat) : Time :=
  let seconds := n / nanosPerSecond
  ⟨seconds / 3600, seconds / 60 % 60, seconds % 60, n % nanosPerSecond⟩

def fractionText (nano : Nat) : String :=
  if nano = 0 then ""
  else if nano % 1000000 = 0 then "." ++ Text.paddedNatural 3 (nano / 1000000)
  else if nano % 1000 = 0 then "." ++ Text.paddedNatural 6 (nano / 1000)
  else "." ++ Text.paddedNatural 9 nano

def text (t : Time) : String :=
  Text.paddedNatural 2 t.hour ++ ":" ++ Text.paddedNatural 2 t.minute ++ ":" ++
    Text.paddedNatural 2 (t.second + t.nano / nanosPerSecond) ++
    fractionText (t.nano % nanosPerSecond)

end Time

namespace DateTime

def nanosPerDay : Nat := 86400 * Time.nanosPerSecond

def toNanos (t : DateTime) : Int := t.date.toDays * nanosPerDay + t.time.nanosOfDay

def ofNanos (n : Int) : DateTime :=
  ⟨Date.ofDays (n / nanosPerDay), Time.ofNanosOfDay (n % nanosPerDay).toNat⟩

def text (t : DateTime) : String := t.date.text ++ " " ++ t.time.text

def utcText (t : DateTime) : String := t.date.text ++ "T" ++ t.time.text ++ "+00:00"

end DateTime

end QueryLoom
