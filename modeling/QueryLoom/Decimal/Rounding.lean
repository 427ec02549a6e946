import QueryLoom.Decimal.Basic
import QueryLoom.Floating.Format

/-!
# Rounding decimals

A sum that needs more digits than a coefficient has room for is rounded to the nearest decimal
with fewer places, a half going to the even one. A decimal that is brought to a given scale is
rounded by the first digit that it loses, a half going up.
-/

set_option autoImplicit false

namespace QueryLoom.Decimal

def roundPlaces (places n : Nat) : Nat :=
  if places = 0 then n
  else n / Nat.pow 10 places + if 5 ≤ n / Nat.pow 10 (places - 1) % 10 then 1 else 0

namespace Parts

def fitAfter? (n dropped : Nat) : Nat → Option Parts
  | 0 =>
    let rounded := Floating.roundHalfEven n (Nat.pow 10 dropped)
    if rounded < limit then some ⟨rounded, 0⟩ else none
  | scale + 1 =>
    let rounded := Floating.roundHalfEven n (Nat.pow 10 dropped)
    if rounded < limit then some ⟨rounded, scale + 1⟩ else fitAfter? n (dropped + 1) scale

/-- Rounded to a coefficient within the bounds, unless the whole part alone needs more room. -/
def fit? (p : Parts) : Option Parts := fitAfter? p.coefficient 0 p.scale

def add (p q : Parts) : Parts :=
  let scale := max p.scale q.scale
  ⟨p.coefficient * Nat.pow 10 (scale - p.scale) +
    q.coefficient * Nat.pow 10 (scale - q.scale), scale⟩

def appendZeros : Nat → Parts → Parts
  | 0, p => p
  | n + 1, p =>
    if 10 * p.coefficient < limit && p.scale < maxScale then
      appendZeros n ⟨10 * p.coefficient, p.scale + 1⟩
    else p

def rescale (p : Parts) (scale : Nat) : Parts :=
  if p.coefficient = 0 then ⟨0, min scale maxScale⟩
  else if scale ≤ p.scale then ⟨roundPlaces (p.scale - scale) p.coefficient, scale⟩
  else appendZeros (scale - p.scale) p

end Parts

end QueryLoom.Decimal
