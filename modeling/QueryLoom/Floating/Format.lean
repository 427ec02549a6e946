/-!
# Binary floating-point formats

A format is a number of significand bits and of exponent bits. A finite magnitude is `m * 2 ^ q`
with a whole `m`; `Format.nearest` gives the bits of the magnitude nearest to a quotient, of two
equally near the one with an even `m`, and infinity from half a step above the largest.
-/

set_option autoImplicit false

namespace QueryLoom.Floating

structure Format where
  /-- Bits of the significand, its leading one included. -/
  precision : Nat
  exponentBits : Nat
  deriving DecidableEq, Repr

def single : Format := ⟨24, 8⟩

def double : Format := ⟨53, 11⟩

namespace Format

def minExponent (f : Format) : Int := 3 - Nat.pow 2 (f.exponentBits - 1) - f.precision

def infinityBits (f : Format) : Nat :=
  (Nat.pow 2 f.exponentBits - 1) * Nat.pow 2 (f.precision - 1)

def signBit (f : Format) : Nat := Nat.pow 2 (f.precision - 1 + f.exponentBits)

def quietBit (f : Format) : Nat := Nat.pow 2 (f.precision - 2)

end Format

def roundHalfEven (num den : Nat) : Nat :=
  let whole := num / den
  let twice := 2 * (num % den)
  if twice < den then whole
  else if den < twice then whole + 1
  else if whole % 2 = 0 then whole else whole + 1

/-- The largest `e` with `2 ^ e ≤ num / den`, for positive arguments. -/
def log2Quotient (num den : Nat) : Int :=
  let e : Int := (num.log2 : Int) - (den.log2 : Int)
  if den * Nat.pow 2 e.toNat ≤ num * Nat.pow 2 (-e).toNat then e else e - 1

def roundToStep (num den : Nat) (q : Int) : Nat :=
  roundHalfEven (num * Nat.pow 2 (-q).toNat) (den * Nat.pow 2 q.toNat)

/-- Bits of the nearest magnitude. The bits of one magnitude after another are one number after
another, so a significand that is rounded up to the next power of two needs no care. -/
def Format.nearest (f : Format) (num den : Nat) : Nat :=
  if num = 0 then 0
  else
    let q := max (log2Quotient num den - (f.precision - 1)) f.minExponent
    let bits := roundToStep num den q + (q - f.minExponent).toNat * Nat.pow 2 (f.precision - 1)
    min bits f.infinityBits

inductive Magnitude where
  | finite (m : Nat) (q : Int)
  | infinite
  | nan
  deriving DecidableEq, Repr

def Format.magnitude (f : Format) (bits : Nat) : Magnitude :=
  let fraction := bits % Nat.pow 2 (f.precision - 1)
  let exponent := bits / Nat.pow 2 (f.precision - 1)
  if exponent = Nat.pow 2 f.exponentBits - 1 then
    if fraction = 0 then .infinite else .nan
  else if exponent = 0 then .finite fraction f.minExponent
  else .finite (fraction + Nat.pow 2 (f.precision - 1)) (f.minExponent + exponent - 1)

end QueryLoom.Floating
