import QueryLoom.Floating.Double
import QueryLoom.Json.Basic
import QueryLoom.Json.Grammar

/-!
# Reading JSON values

What the grammar leaves open is decided here. Strings are sequences of characters, so a surrogate
escape without its partner is refused. Whole numbers of 64 bits stay whole. Other numbers become
doubles from a significand of at most 64 bits, which is scaled by a power of ten with one rounding
for the power and one for the scaling; a number too large for a double is refused. At most 127
arrays and objects may lie inside one another. Of members with the same name the last one counts,
and members are sorted by name.
-/

set_option autoImplicit false

namespace QueryLoom.Json
open Floating

def isHighSurrogate (n : Nat) : Bool := 0xD800 ≤ n && n ≤ 0xDBFF

def isLowSurrogate (n : Nat) : Bool := 0xDC00 ≤ n && n ≤ 0xDFFF

def stringChars? : List StringPart → Option (List Char)
  | [] => some []
  | .char c :: parts => (stringChars? parts).map (c :: ·)
  | [.unit n] => if isHighSurrogate n || isLowSurrogate n then none else some [Char.ofNat n]
  | .unit n :: p :: parts =>
    if isHighSurrogate n then
      match p with
      | .unit low =>
        if isLowSurrogate low then
          (stringChars? parts).map
            (Char.ofNat (0x10000 + 0x400 * (n - 0xD800) + (low - 0xDC00)) :: ·)
        else none
      | .char _ => none
    else if isLowSurrogate n then none
    else (stringChars? (p :: parts)).map (Char.ofNat n :: ·)

def string? (parts : List StringPart) : Option String := (stringChars? parts).map String.ofList

def significandLimit : Nat := 0x10000000000000000

/-- Appends digits to a significand as long as it stays below the limit; what is left of them
comes back too. -/
def fillSignificand (acc : Nat) : List Char → Nat × List Char
  | [] => (acc, [])
  | c :: cs =>
    let next := 10 * acc + (c.toNat - 48)
    if next < significandLimit then fillSignificand next cs else (acc, c :: cs)

def magnitudeQuotient (bits : Nat) : Nat × Nat :=
  match double.magnitude bits with
  | .finite m q => (m * Nat.pow 2 q.toNat, Nat.pow 2 (-q).toNat)
  | _ => (0, 1)

def powerOfTen (n : Nat) : Nat := double.nearest (Nat.pow 10 n) 1

def timesPower (bits n : Nat) : Nat :=
  let (a, b) := magnitudeQuotient bits
  let (c, d) := magnitudeQuotient (powerOfTen n)
  double.nearest (a * c) (b * d)

def overPower (bits n : Nat) : Nat :=
  let (a, b) := magnitudeQuotient bits
  let (c, d) := magnitudeQuotient (powerOfTen n)
  double.nearest (a * d) (b * c)

def shrink (bits n : Nat) : Nat :=
  if n ≤ 308 then overPower bits n
  else if bits = 0 then 0
  else shrink (overPower bits 308) (n - 308)
termination_by n

def scaled? (significand : Nat) (exponent : Int) : Option Nat :=
  let bits := double.nearest significand 1
  if exponent < 0 then some (shrink bits (-exponent).toNat)
  else if 308 < exponent then if bits = 0 then some 0 else none
  else
    let product := timesPower bits exponent.toNat
    if product < double.infinityBits then some product else none

def RawNumber.double? (n : RawNumber) : Option Double :=
  let (s, left) := fillSignificand 0 n.whole
  let fraction := n.fraction.getD []
  let (s, unused) := fillSignificand s fraction
  let exponent := (left.length : Int) - (fraction.length - unused.length : Nat) + n.exponent.getD 0
  (scaled? s exponent).map (Double.ofMagnitudeBits n.negative)

/-- A number without point and exponent is whole if it has 64 bits, or 63 and a sign; minus zero
is a double. -/
def RawNumber.value? (n : RawNumber) : Option Json :=
  let v := Nat.ofDigitChars 10 n.whole 0
  let isWhole := n.fraction.isNone && n.exponent.isNone
  if isWhole && !n.negative && v < significandLimit then some (.int v)
  else if isWhole && n.negative && v ≠ 0 && 2 * v ≤ significandLimit then some (.int (-(v : Int)))
  else n.double?.map .float

def insertMember (key : String) (value : Json) : List (String × Json) → List (String × Json)
  | [] => [(key, value)]
  | (k, v) :: rest =>
    if key < k then (key, value) :: (k, v) :: rest
    else if k < key then (k, v) :: insertMember key value rest
    else (key, value) :: rest

mutual

def ofRaw? (depth : Nat) : Raw → Option Json
  | .null => some .null
  | .bool b => some (.bool b)
  | .number n => n.value?
  | .string parts => (string? parts).map .string
  | .array items => if depth = 0 then none else (itemsOfRaw? (depth - 1) items).map .array
  | .object members =>
    if depth = 0 then none else (membersOfRaw? (depth - 1) [] members).map .object

def itemsOfRaw? (depth : Nat) : List Raw → Option (List Json)
  | [] => some []
  | r :: rs => do
    let v ← ofRaw? depth r
    let vs ← itemsOfRaw? depth rs
    some (v :: vs)

def membersOfRaw? (depth : Nat) (done : List (String × Json)) :
    List (List StringPart × Raw) → Option (List (String × Json))
  | [] => some done
  | (k, r) :: ms => do
    let key ← string? k
    let v ← ofRaw? depth r
    membersOfRaw? depth (insertMember key v done) ms

end

def maxDepth : Nat := 127

def read? (s : String) : Option Json := (readRaw? s).bind (ofRaw? maxDepth)

/-- The named fields of a structure: an object gives each at most once, besides members of other
names, and an array gives them in order, from the first on. -/
def fields? (names : List String) : Raw → Option (List (Option Raw))
  | .array items =>
    if items.length ≤ names.length then
      some ((items.map some) ++ List.replicate (names.length - items.length) none)
    else none
  | .object members => do
    let keyed ← members.mapM fun (k, r) => (string? k).map fun key => (key, r)
    names.mapM fun name =>
      match keyed.filter fun m => m.1 == name with
      | [] => some none
      | [(_, r)] => some (some r)
      | _ => none
  | _ => none

def Raw.isPositional : Raw → Bool
  | .array _ => true
  | _ => false

def Raw.string? : Raw → Option String
  | .string parts => Json.string? parts
  | _ => none

def Raw.bool? : Raw → Option Bool
  | .bool b => some b
  | _ => none

def Raw.optional? {α : Type} (read : Raw → Option α) : Raw → Option (Option α)
  | .null => some none
  | r => (read r).map some

end QueryLoom.Json
