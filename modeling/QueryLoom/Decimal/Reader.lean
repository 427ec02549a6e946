import QueryLoom.Decimal.Rounding
import QueryLoom.Text.Basic

/-!
# Reading decimals

A decimal numeral has an optional sign, digits with at most one point among, before or after them,
and an optional exponent that moves the point. Underscores may follow any digit. Digits after the
point for which there is no room are rounded off, and then only the first of them counts; digits
before the point always need room. An exponent rounds off the digits that it moves beyond the
largest scale.
-/

set_option autoImplicit false

namespace QueryLoom.Decimal

structure Progress where
  parts : Parts := ⟨0, 0⟩
  afterPoint : Bool := false
  hasDigit : Bool := false
  deriving DecidableEq, Repr

def digitValue (c : Char) : Nat := c.toNat - 48

/-- Rounds by the first digit that has no room. A coefficient that is rounded up beyond its bound
gives its last digit away. -/
def Parts.roundOff? (p : Parts) (digit : Nat) : Option Parts :=
  if digit < 5 then some p
  else if p.coefficient + 1 < limit then some { p with coefficient := p.coefficient + 1 }
  else if p.scale = 0 then none
  else some ⟨(p.coefficient + 5) / 10, p.scale - 1⟩

/-- From here on the digits before the last one make a coefficient wide. -/
def wideFrom : Nat := 1844674407370954906

def Parts.isWide (p : Parts) : Bool := wideFrom ≤ p.coefficient / 10

/-- The digit that rounds, from characters without room. A wide coefficient looks for it behind
underscores; for any other an underscore stands for a zero. -/
def Parts.roundingDigit (p : Parts) (cs : List Char) : Nat :=
  match if p.isWide then cs.dropWhile (· == '_') else cs with
  | [] => 0
  | c :: _ => if c = '_' then 0 else digitValue c

def Parts.roundTail? (p : Parts) (cs : List Char) : Option Parts :=
  if cs.all fun c => c.isDigit || c == '_' then p.roundOff? (p.roundingDigit cs) else none

def Progress.push (p : Progress) (c : Char) : Progress where
  parts := ⟨10 * p.parts.coefficient + digitValue c, p.parts.scale + if p.afterPoint then 1 else 0⟩
  afterPoint := p.afterPoint
  hasDigit := true

def Progress.read? (p : Progress) : List Char → Option Parts
  | [] => if p.hasDigit then some p.parts else none
  | c :: cs =>
    if p.parts.scale = maxScale then p.parts.roundTail? (c :: cs)
    else if c.isDigit then
      if (p.push c).parts.coefficient < limit then (p.push c).read? cs
      else if p.afterPoint then p.parts.roundTail? (c :: cs)
      else none
    else if c = '.' && !p.afterPoint then { p with afterPoint := true : Progress }.read? cs
    else if c = '_' && p.hasDigit then p.read? cs
    else none

def readPlain? : List Char → Option (Bool × Parts)
  | '-' :: cs => (({} : Progress).read? cs).map (Prod.mk true)
  | '+' :: cs => (({} : Progress).read? cs).map (Prod.mk false)
  | cs => (({} : Progress).read? cs).map (Prod.mk false)

def Parts.shrink? (p : Parts) (places : Nat) : Option Parts :=
  let scale := p.scale + places
  if maxScale < places then none
  else some ⟨roundPlaces (scale - maxScale) p.coefficient, min scale maxScale⟩

def Parts.grow? (p : Parts) (places : Nat) : Option Parts :=
  if places ≤ p.scale then some { p with scale := p.scale - places }
  else if places ≤ maxScale then some ⟨p.coefficient * Nat.pow 10 (places - p.scale), 0⟩
  else none

def exponentPlaces? (cs : List Char) : Option Nat :=
  ((Text.Range.unsigned 32).read (String.ofList cs)).toOption.map Int.toNat

def Parts.scaleBy? (p : Parts) : List Char → Option Parts
  | '-' :: cs => (exponentPlaces? cs).bind p.shrink?
  | cs => (exponentPlaces? cs).bind p.grow?

def isExponentMark (c : Char) : Bool := c == 'e' || c == 'E'

def read? (s : String) : Option Decimal := do
  let cs := Text.trim s.toList
  let (negative, parts) ← readPlain? (cs.takeWhile (!isExponentMark ·))
  let parts ← match cs.dropWhile (!isExponentMark ·) with
    | [] => some parts
    | _ :: exponent => parts.scaleBy? exponent
  ofParts? negative parts

end QueryLoom.Decimal
