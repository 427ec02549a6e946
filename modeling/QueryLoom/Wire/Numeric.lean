import QueryLoom.Decimal.Rounding
import QueryLoom.Wire.Bytes

/-!
# Decimals on the wire

A decimal travels as groups of four digits, aligned at the point. Four words stand in front: the
number of groups, the weight of the first one as a power of ten thousand, the sign and the scale.
-/

set_option autoImplicit false

namespace QueryLoom.Wire

structure Numeric where
  weight : Int
  negative : Bool
  scale : Nat
  groups : List Nat
  deriving DecidableEq, Repr

namespace Numeric

def groupBase : Nat := 10000

def signWord (negative : Bool) : Nat := if negative then 0x4000 else 0

def bytes (n : Numeric) : List UInt8 :=
  word 2 n.groups.length ++ signedWord 2 n.weight ++ word 2 (signWord n.negative) ++
    word 2 n.scale ++ n.groups.flatMap (word 2)

/-- Sign words from here on mark what is no number or not finite. -/
def specialSigns : Nat := 0xc000

def ofSignWord? (w : Nat) : Option Bool := if w < specialSigns then some (w == 0x4000) else none

def reader : Reader Numeric := do
  let count ← Reader.unsigned 2
  let weight ← Reader.signed 2
  let sign ← Reader.unsigned 2
  let scale ← Reader.unsigned 2
  let groups ← Reader.times (Reader.unsigned 2) count
  match ofSignWord? sign with
  | some negative => return { weight, negative, scale, groups }
  | none => failure

def ofBytes? (bytes : List UInt8) : Option Numeric := (reader.run bytes).map Prod.fst

/-! ## From decimals -/

def groupsOf (n : Nat) : List Nat :=
  if n = 0 then [] else groupsOf (n / groupBase) ++ [n % groupBase]
termination_by n
decreasing_by
  simp only [groupBase]
  omega

def fractionGroups (scale : Nat) : Nat := (scale + 3) / 4

def dropTrailingZeros (groups : List Nat) : List Nat :=
  (groups.reverse.dropWhile (· == 0)).reverse

/-- The groups after the point lose the zeros at their end if there are groups before it. Zero has
no group, sign or scale. -/
def ofDecimal (d : Decimal) : Numeric :=
  if d.coefficient = 0 then ⟨0, false, 0, []⟩
  else
    let fractions := fractionGroups d.scale
    let groups := groupsOf (d.coefficient * Nat.pow 10 (4 * fractions - d.scale))
    let wholes := groups.length - fractions
    let kept :=
      if wholes = 0 then groups else groups.take wholes ++ dropTrailingZeros (groups.drop wholes)
    ⟨(groups.length : Int) - fractions - 1, d.negative, d.scale, kept⟩

/-! ## To decimals -/

def wholeOf (groups : List Nat) : Nat := groups.foldl (fun n g => groupBase * n + g) 0

/-- Adds groups from the given place after the point on. The first group beyond the largest scale
only rounds the last digit up. -/
def addFractions? (place : Nat) (sum : Decimal.Parts) : List Nat → Option Decimal.Parts
  | [] => some sum
  | g :: groups =>
    let places := 4 * place
    if places ≤ Decimal.maxScale then do
      addFractions? (place + 1) (← (sum.add ⟨g, places⟩).fit?) groups
    else if places = Decimal.maxScale + 4 && 5000 ≤ g then (sum.add ⟨1, Decimal.maxScale⟩).fit?
    else some sum

/-- The whole part; zeros stand for groups before the point that are not there. The power of ten of
those zeros needs to have room, even where there is nothing in front of them. -/
def wholePart? (n : Numeric) : Option Decimal.Parts :=
  let wholes := (n.weight + 1).toNat
  let shift := Nat.pow groupBase (wholes - n.groups.length)
  if shift < Decimal.limit then (⟨wholeOf (n.groups.take wholes) * shift, 0⟩ : Decimal.Parts).fit?
  else none

def toDecimal? (n : Numeric) : Option Decimal := do
  let fractions := n.groups.drop (n.weight + 1).toNat
  let sum ← addFractions? (1 + (-1 - n.weight).toNat) (← n.wholePart?) fractions
  Decimal.ofParts? n.negative (sum.rescale n.scale)

end Numeric

end QueryLoom.Wire
