import QueryLoom.Calendar.Basic
import QueryLoom.Text.Basic

/-!
# Reading dates and times

Two grammars. The loose one is for dates and times without an offset: fields may be short, white
space may stand in front of each, and a year with a sign may be long. The strict one is for
moments with an offset, where all fields have their full width. Either gives dates and times of
the calendar only.
-/

set_option autoImplicit false

namespace QueryLoom.Calendar

abbrev Scan (α : Type) := StateT (List Char) Option α

namespace Scan

def mark (c : Char) : Scan Unit
  | d :: cs => if d = c then some ((), cs) else none
  | [] => none

def blanks : Scan Unit := fun cs => some ((), Text.trimStart cs)

def digits (least : Nat) (most : Option Nat) : Scan (List Char) := fun cs =>
  let run := cs.takeWhile Char.isDigit
  let taken := run.take (most.getD run.length)
  if least ≤ taken.length then some (taken, cs.drop taken.length) else none

def natural (least : Nat) (most : Option Nat) : Scan Nat :=
  return Nat.ofDigitChars 10 (← digits least most) 0

def short : Scan Nat := do
  blanks
  natural 1 (some 2)

def pair : Scan Nat := natural 2 (some 2)

def year : Scan Int := do
  blanks
  match ← get with
  | '-' :: cs =>
    set cs
    return -(← natural 1 none : Nat)
  | '+' :: cs =>
    set cs
    return (← natural 1 none : Nat)
  | _ => return (← natural 1 (some 4) : Nat)

def fraction : Scan Nat := do
  match ← get with
  | '.' :: cs =>
    set cs
    let ds ← digits 1 none
    return Nat.ofDigitChars 10 (ds.take 9 ++ List.replicate (9 - ds.length) '0') 0
  | _ => return 0

def checkedDate (year : Int) (month day : Nat) : Scan Date :=
  let d : Date := ⟨year, month, day⟩
  if d.isValid then return d else failure

/-- The sixtieth second is the last ordinary one with a second of nanoseconds more. -/
def checkedTime (hour minute second nano : Nat) : Scan Time :=
  let t : Time :=
    if second = 60 then ⟨hour, minute, 59, nano + Time.nanosPerSecond⟩
    else ⟨hour, minute, second, nano⟩
  if t.isValid then return t else failure

def date : Scan Date := do
  let y ← year
  mark '-'
  let m ← short
  mark '-'
  let d ← short
  checkedDate y m d

def time : Scan Time := do
  let h ← short
  mark ':'
  let m ← short
  mark ':'
  let s ← short
  let n ← fraction
  checkedTime h m s n

def dateTime (separator : Scan Unit) : Scan DateTime := do
  let d ← date
  separator
  let t ← time
  return ⟨d, t⟩

def offset : Scan Int := do
  match ← get with
  | 'Z' :: cs => set cs; return 0
  | 'z' :: cs => set cs; return 0
  | '+' :: cs => set cs; return (← span : Nat)
  | '-' :: cs => set cs; return -(← span : Nat)
  | '\u2212' :: cs => set cs; return -(← span : Nat)
  | _ => failure
where
  span : Scan Nat := do
    let h ← pair
    mark ':'
    let m ← pair
    if h < 24 && m < 60 then return 60 * h + m else failure

def strictDate : Scan Date := do
  let y ← natural 4 (some 4)
  mark '-'
  let m ← pair
  mark '-'
  let d ← pair
  checkedDate y m d

def strictTime : Scan Time := do
  let h ← pair
  mark ':'
  let m ← pair
  mark ':'
  let s ← pair
  let n ← fraction
  checkedTime h m s n

def moment : Scan (DateTime × Int) := do
  let d ← strictDate
  mark 'T' <|> mark 't' <|> mark ' '
  let t ← strictTime
  return (⟨d, t⟩, ← offset)

def complete? {α : Type} (scan : Scan α) (s : String) : Option α :=
  match scan.run s.toList with
  | some (a, []) => some a
  | _ => none

end Scan

end QueryLoom.Calendar

namespace QueryLoom

def Date.read? (s : String) : Option Date := Calendar.Scan.date.complete? s

def Time.read? (s : String) : Option Time := Calendar.Scan.time.complete? s

def DateTime.read? (s : String) : Option DateTime :=
  (Calendar.Scan.dateTime Calendar.Scan.blanks).complete? s <|>
    (Calendar.Scan.dateTime (Calendar.Scan.mark 'T')).complete? s

def DateTime.readWithOffset? (s : String) : Option (DateTime × Int) :=
  Calendar.Scan.moment.complete? s

end QueryLoom
