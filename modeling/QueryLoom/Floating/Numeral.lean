import QueryLoom.Floating.Double

/-!
# Reading doubles

A floating-point numeral has an optional sign, digits with at most one point among, before or
after them, and an optional exponent; or it is one of three words in any case. Its value is the
number of the wanted format nearest to it.
-/

set_option autoImplicit false

namespace QueryLoom

namespace Floating

inductive Numeral where
  | decimal (digits : List Char) (exponent : Int)
  | infinity
  | nan
  deriving DecidableEq, Repr

inductive NumeralError where
  | empty
  | invalid
  deriving DecidableEq, Repr

def NumeralError.message : NumeralError → String
  | .empty => "cannot parse float from empty string"
  | .invalid => "invalid float literal"

/-- Bits of the magnitude nearest to a decimal. A decimal far outside every format is settled by
the place of its first digit. -/
def Format.nearestDecimal (f : Format) (digits : List Char) (exponent : Int) : Nat :=
  let significant := digits.dropWhile (· == '0')
  let top := exponent + significant.length
  if significant.isEmpty then 0
  else if 400 < top then f.infinityBits
  else if top < -400 then 0
  else
    f.nearest (Nat.ofDigitChars 10 significant 0 * Nat.pow 10 exponent.toNat)
      (Nat.pow 10 (-exponent).toNat)

def Format.ofNumeral (f : Format) : Numeral → Nat
  | .decimal digits exponent => f.nearestDecimal digits exponent
  | .infinity => f.infinityBits
  | .nan => f.infinityBits + f.quietBit

def takeSign : List Char → Bool × List Char
  | '-' :: cs => (true, cs)
  | '+' :: cs => (false, cs)
  | cs => (false, cs)

def readExponent? : List Char → Option Int
  | [] => some 0
  | c :: cs =>
    if c = 'e' || c = 'E' then
      let (negative, digits) := takeSign cs
      if !digits.isEmpty && digits.all Char.isDigit then
        let n : Int := Nat.ofDigitChars 10 digits 0
        some (if negative then -n else n)
      else none
    else none

def readDecimal? (cs : List Char) : Option Numeral :=
  let whole := cs.takeWhile Char.isDigit
  let rest := cs.dropWhile Char.isDigit
  let (fraction, rest) := match rest with
    | '.' :: r => (r.takeWhile Char.isDigit, r.dropWhile Char.isDigit)
    | r => ([], r)
  if whole.isEmpty && fraction.isEmpty then none
  else (readExponent? rest).map fun e => .decimal (whole ++ fraction) (e - fraction.length)

def readWord? (cs : List Char) : Option Numeral :=
  match String.ofList (cs.map Char.toLower) with
  | "inf" => some .infinity
  | "infinity" => some .infinity
  | "nan" => some .nan
  | _ => none

def readNumeral (s : String) : Except NumeralError (Bool × Numeral) :=
  if s.isEmpty then .error .empty
  else
    let (negative, cs) := takeSign s.toList
    match readDecimal? cs <|> readWord? cs with
    | some n => .ok (negative, n)
    | none => .error .invalid

end Floating

namespace Double
open Floating

def read (s : String) : Except NumeralError Double :=
  (readNumeral s).map fun (negative, n) => ofMagnitudeBits negative (double.ofNumeral n)

def readSingleBits (s : String) : Except NumeralError Nat :=
  (readNumeral s).map fun (negative, n) =>
    (if negative then single.signBit else 0) + single.ofNumeral n

end Double

end QueryLoom
