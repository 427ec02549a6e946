import QueryLoom.Floating.Format

/-!
# Doubles

A double is its 64 bits, so that two doubles are equal exactly when no reader of bits can tell
them apart. The comparison of arithmetic is `Double.same`: zeros of either sign are the same, and
what is not a number is the same as nothing.
-/

set_option autoImplicit false

namespace QueryLoom

structure Double where
  bits : UInt64
  deriving DecidableEq, Repr, Inhabited

namespace Double
open Floating

def isNegative (x : Double) : Bool := double.signBit ≤ x.bits.toNat

def magnitudeBits (x : Double) : Nat := x.bits.toNat % double.signBit

def magnitude (x : Double) : Magnitude := double.magnitude x.magnitudeBits

def ofMagnitudeBits (negative : Bool) (bits : Nat) : Double :=
  ⟨UInt64.ofNat (if negative then double.signBit + bits else bits)⟩

def isNaN (x : Double) : Bool := x.magnitude == .nan

def isFinite (x : Double) : Bool := x.magnitudeBits < double.infinityBits

def ofQuotient (negative : Bool) (num den : Nat) : Double :=
  ofMagnitudeBits negative (double.nearest num den)

def ofInt (n : Int) : Double := ofQuotient (n < 0) n.natAbs 1

def infinity (negative : Bool) : Double := ofMagnitudeBits negative double.infinityBits

def nan (negative : Bool) : Double :=
  ofMagnitudeBits negative (double.infinityBits + double.quietBit)

def zero (negative : Bool) : Double := ofMagnitudeBits negative 0

def same (x y : Double) : Bool :=
  !x.isNaN && !y.isNaN &&
    (x == y || (x.magnitudeBits == 0 && y.magnitudeBits == 0))

/-- Bits of the nearest number of the 32-bit format. What is not a number keeps its sign and the
leading bits of its fraction, and becomes quiet. -/
def toSingleBits (x : Double) : Nat :=
  let sign := if x.isNegative then single.signBit else 0
  sign + match x.magnitude with
    | .finite m q => single.nearest (m * Nat.pow 2 q.toNat) (Nat.pow 2 (-q).toNat)
    | .infinite => single.infinityBits
    | .nan =>
      single.infinityBits + single.quietBit +
        x.magnitudeBits % double.quietBit / Nat.pow 2 (double.precision - single.precision)

def ofSingleBits (bits : Nat) : Double :=
  let negative : Bool := single.signBit ≤ bits
  match single.magnitude (bits % single.signBit) with
  | .finite m q => ofQuotient negative (m * Nat.pow 2 q.toNat) (Nat.pow 2 (-q).toNat)
  | .infinite => infinity negative
  | .nan =>
    ofMagnitudeBits negative (double.infinityBits + double.quietBit +
      bits % single.quietBit * Nat.pow 2 (double.precision - single.precision))

end Double

end QueryLoom
