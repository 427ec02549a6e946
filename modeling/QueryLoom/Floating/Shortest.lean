import QueryLoom.Floating.Double

/-!
# Shortest decimals

The decimal text of a double has the fewest digits that read back as that double, and of those
the nearest to it. The numbers that read back lie between the midpoints to the two neighbours;
a midpoint itself reads back if the significand is even. For each number of digits only the two
decimals around the value have to be tried: if any decimal of that many digits lies between the
midpoints, so does one of these.
-/

set_option autoImplicit false

namespace QueryLoom.Floating

structure Scientific where
  digits : Nat
  exponent : Int
  deriving DecidableEq, Repr

/-- The double `m * 2 ^ q` and the midpoints around it, as quotients over one denominator. -/
structure Neighbourhood where
  value : Nat
  low : Nat
  high : Nat
  den : Nat
  inclusive : Bool
  deriving DecidableEq, Repr

/-- Below a power of two the next double is only half a step away. -/
def neighbourhood (m : Nat) (q : Int) : Neighbourhood :=
  let scale := Nat.pow 2 q.toNat
  let below := if m = Nat.pow 2 (double.precision - 1) && double.minExponent < q then 1 else 2
  { value := 4 * m * scale
    low := (4 * m - below) * scale
    high := (4 * m + 2) * scale
    den := 4 * Nat.pow 2 (-q).toNat
    inclusive := m % 2 == 0 }

def Neighbourhood.holds (n : Neighbourhood) (factor num : Nat) : Bool :=
  if n.inclusive then n.low * factor ≤ num && num ≤ n.high * factor
  else n.low * factor < num && num < n.high * factor

def pointPlace (num den : Nat) : Int :=
  let guess : Int := (log2Quotient num den * 30103) / 100000
  let tooSmall (p : Int) : Bool := den * Nat.pow 10 p.toNat ≤ num * Nat.pow 10 (-p).toNat
  if tooSmall (guess + 1) then guess + 2 else if tooSmall guess then guess + 1 else guess

/-- The nearer of the two decimals `d * 10 ^ e` and `(d + 1) * 10 ^ e` around the value, among
those that read back. -/
def Neighbourhood.onGrid? (n : Neighbourhood) (e : Int) : Option Scientific :=
  let up := Nat.pow 10 e.toNat
  let down := Nat.pow 10 (-e).toNat
  let d := n.value * down / (n.den * up)
  let place (k : Nat) : Nat := k * up * n.den
  let value := n.value * down
  let lowHolds := n.holds down (place d)
  let highHolds := n.holds down (place (d + 1))
  let lowNearer := 2 * value < place d + place (d + 1) ||
    (2 * value == place d + place (d + 1) && d % 2 == 0)
  if lowHolds && (lowNearer || !highHolds) then some ⟨d, e⟩
  else if highHolds then some ⟨d + 1, e⟩
  else none

def Neighbourhood.search (n : Neighbourhood) (place : Int) : Nat → Nat → Scientific
  | 0, _ => ⟨n.value / n.den, 0⟩
  | fuel + 1, used =>
    match n.onGrid? (place - used) with
    | some d => d
    | none => n.search place fuel (used + 1)

def Scientific.trimZeros (d : Scientific) : Nat → Scientific
  | 0 => d
  | fuel + 1 =>
    if d.digits % 10 = 0 then (⟨d.digits / 10, d.exponent + 1⟩ : Scientific).trimZeros fuel else d

/-- Seventeen digits always suffice. -/
def shortest (m : Nat) (q : Int) : Scientific :=
  let n := neighbourhood m q
  (n.search (pointPlace n.value n.den) 17 1).trimZeros 20

end QueryLoom.Floating
