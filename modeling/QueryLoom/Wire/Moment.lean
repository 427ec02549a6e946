import QueryLoom.Calendar.Basic
import QueryLoom.Wire.Bytes

/-!
# Dates and times on the wire

A date is the number of days, a point in time the number of microseconds since the beginning of
the year 2000; a time of day is the number of microseconds since midnight. An interval has
microseconds, days and months, which are not converted into one another.
-/

set_option autoImplicit false

namespace QueryLoom.Wire

def nanosPerMicro : Nat := 1000

def microsPerDay : Nat := 86400000000

def microsPerMinute : Nat := 60000000

def encodeDate (d : Date) : List UInt8 := signedWord 4 d.toDays

/-- What is below a microsecond is cut off. -/
def encodeTime (t : Time) : List UInt8 := signedWord 8 (t.nanosOfDay / nanosPerMicro : Nat)

def microsOf (t : DateTime) : Int := t.toNanos.tdiv nanosPerMicro

def encodeDateTime (t : DateTime) : List UInt8 := signedWord 8 (microsOf t)

def encodeMoment (t : DateTime) (offset : Int) : List UInt8 :=
  signedWord 8 ((t.toNanos - offset * (microsPerMinute * nanosPerMicro : Nat)).tdiv nanosPerMicro)

def decodeDate? (bytes : List UInt8) : Option Date :=
  (signed? 4 bytes).bind fun days =>
    let d := Date.ofDays days
    if d.isValid then some d else none

/-- Full days are left out of account. -/
def decodeTime? (bytes : List UInt8) : Option Time :=
  (signed? 8 bytes).map fun micros =>
    Time.ofNanosOfDay ((micros % (microsPerDay : Int)).toNat * nanosPerMicro)

def decodeDateTime? (bytes : List UInt8) : Option DateTime :=
  (signed? 8 bytes).bind fun micros =>
    let t := DateTime.ofNanos (micros * nanosPerMicro)
    if t.date.isValid then some t else none

structure Interval where
  micros : Int
  days : Int
  months : Int
  deriving DecidableEq, Repr

namespace Interval

def ofBytes? (bytes : List UInt8) : Option Interval :=
  (exactly? 16 bytes).map fun bytes =>
    ⟨Wire.signed (bytes.take 8), Wire.signed ((bytes.drop 8).take 4), Wire.signed (bytes.drop 12)⟩

def text (i : Interval) : String :=
  let micros := i.micros.natAbs
  let seconds := micros / 1000000
  Text.integer i.months ++ " mons " ++ Text.integer i.days ++ " days " ++
    (if i.micros < 0 then "-" else "") ++ Text.paddedNatural 2 (seconds / 3600) ++ ":" ++
    Text.paddedNatural 2 (seconds / 60 % 60) ++ ":" ++ Text.paddedNatural 2 (seconds % 60) ++ "." ++
    Text.paddedNatural 6 (micros % 1000000)

end Interval

end QueryLoom.Wire
