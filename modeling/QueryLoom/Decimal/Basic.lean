import QueryLoom.Text.Basic

/-!
# Decimals

A decimal is a whole coefficient of at most 96 bits over a power of ten of at most 28 zeros. The
number of those zeros, its scale, belongs to the value: it is the number of digits that the text
has after the point. Zero has a sign and a scale like every other decimal.
-/

set_option autoImplicit false

namespace QueryLoom

namespace Decimal

/-- Coefficients have 96 bits. -/
def limit : Nat := 0x1000000000000000000000000

def maxScale : Nat := 28

end Decimal

structure Decimal where
  negative : Bool
  coefficient : Nat
  scale : Nat
  coefficient_lt : coefficient < Decimal.limit
  scale_le : scale ≤ Decimal.maxScale
  deriving DecidableEq, Repr

namespace Decimal

structure Parts where
  coefficient : Nat
  scale : Nat
  deriving DecidableEq, Repr

def ofParts? (negative : Bool) (p : Parts) : Option Decimal :=
  if h : p.coefficient < limit ∧ p.scale ≤ maxScale then
    some ⟨negative, p.coefficient, p.scale, h.1, h.2⟩
  else none

theorem natAbs_int64_lt_limit (n : Int64) : n.toInt.natAbs < limit := by
  have := n.toInt_lt
  have := n.le_toInt
  simp only [limit]
  omega

def ofInt64 (n : Int64) : Decimal :=
  ⟨n.toInt < 0, n.toInt.natAbs, 0, natAbs_int64_lt_limit n, by simp [maxScale]⟩

def text (d : Decimal) : String :=
  let cs := Text.zeroPadded (d.scale + 1) (Nat.toDigits 10 d.coefficient)
  let places := cs.length - d.scale
  let fraction := if d.scale = 0 then [] else '.' :: cs.drop places
  String.ofList ((if d.negative then ['-'] else []) ++ cs.take places ++ fraction)

end Decimal

end QueryLoom
