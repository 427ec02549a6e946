import QueryLoom.Decimal.Rounding
import QueryLoom.Floating.Double

/-!
# Decimals from doubles

A double is a whole number times a power of two. Its factors of two are turned into factors of ten
one after another, within the bounds of a coefficient: a half is five tenths, and two are ten
fifths. What comes out is cut to the digits that a double can vouch for, and loses the zeros at
its end.
-/

set_option autoImplicit false

namespace QueryLoom.Decimal

structure Scaled where
  coefficient : Nat
  exponent : Int
  deriving DecidableEq, Repr

namespace Scaled

/-- Half of it. An odd coefficient without room for a factor of five loses its last bit. -/
def half (s : Scaled) : Scaled :=
  if s.coefficient % 2 = 0 then { s with coefficient := s.coefficient / 2 }
  else if 5 * s.coefficient < limit then ⟨5 * s.coefficient, s.exponent - 1⟩
  else { s with coefficient := s.coefficient / 2 }

/-- Twice as much. A coefficient without room for that is cut to a fifth. -/
def twice (s : Scaled) : Scaled :=
  if 2 * s.coefficient < limit then { s with coefficient := 2 * s.coefficient }
  else ⟨s.coefficient / 5, s.exponent + 1⟩

def ofBinary (m : Nat) (q : Int) : Scaled :=
  if q < 0 then Nat.repeat half q.natAbs ⟨m, 0⟩ else Nat.repeat twice q.natAbs ⟨m, 0⟩

def expand? (s : Scaled) : Option Scaled :=
  if s.exponent ≤ 0 then some s
  else
    let n := s.coefficient * Nat.pow 10 s.exponent.toNat
    if n < limit then some ⟨n, 0⟩ else none

def dropDigit (s : Scaled) : Scaled := ⟨roundPlaces 1 s.coefficient, s.exponent + 1⟩

def dropPlaces : Nat → Scaled → Scaled
  | 0, s => s
  | n + 1, s => if s.coefficient < 10 then ⟨0, 0⟩ else dropPlaces n s.dropDigit

def fitScale (s : Scaled) : Scaled := dropPlaces (-s.exponent - maxScale).toNat s

/-- A coefficient below this has no more digits than a double vouches for; it has 52 bits. -/
def guaranteed : Nat := 0x10000000000000

def dropExcess : Nat → Scaled → Scaled
  | 0, s => s
  | fuel + 1, s =>
    if s.exponent < 0 && guaranteed ≤ s.coefficient then dropExcess fuel s.dropDigit else s

def dropZeros : Nat → Scaled → Scaled
  | 0, s => s
  | fuel + 1, s =>
    if s.exponent < 0 && s.coefficient % 10 = 0 then dropZeros fuel s.dropDigit else s

def simplify (s : Scaled) : Scaled :=
  let s := dropExcess maxScale s
  dropZeros maxScale s

end Scaled

def ofDouble? (x : Double) : Option Decimal :=
  match x.magnitude with
  | .finite 0 _ => ofParts? x.isNegative ⟨0, 0⟩
  | .finite m q => do
    let s := (← (Scaled.ofBinary m q).expand?).fitScale.simplify
    ofParts? x.isNegative ⟨s.coefficient, (-s.exponent).toNat⟩
  | _ => none

end QueryLoom.Decimal
