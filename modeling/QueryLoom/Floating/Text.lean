import QueryLoom.Floating.Shortest
import QueryLoom.Text.Basic

/-!
# Doubles as text

One notation differs from another in where positional notation ends and in a few marks, which a
`Notation` value holds: `plain` never uses an exponent, `diagnostic` shows that a number is a
double, `json` is the notation of JSON texts.
-/

set_option autoImplicit false

namespace QueryLoom.Floating

namespace Scientific

def digitChars (d : Scientific) : List Char := Nat.toDigits 10 d.digits

def leadingPlace (d : Scientific) : Int := d.exponent + d.digitChars.length - 1

def positional (d : Scientific) : List Char :=
  let cs := d.digitChars
  if 0 ≤ d.exponent then cs ++ List.replicate d.exponent.toNat '0'
  else
    let places := (-d.exponent).toNat
    if places < cs.length then
      cs.take (cs.length - places) ++ '.' :: cs.drop (cs.length - places)
    else ['0', '.'] ++ List.replicate (places - cs.length) '0' ++ cs

def significand (d : Scientific) : List Char :=
  match d.digitChars with
  | [] => []
  | [c] => [c]
  | c :: cs => c :: '.' :: cs

end Scientific

structure Notation where
  /-- Lowest and highest place of a first digit that is written positionally, if there is one. -/
  places : Option (Int × Int)
  pointZero : Bool
  exponentPlus : Bool
  deriving DecidableEq, Repr

def plain : Notation := ⟨none, false, false⟩

def diagnostic : Notation := ⟨some (-4, 15), true, false⟩

def json : Notation := ⟨some (-5, 15), true, true⟩

def Notation.isPositional (style : Notation) (place : Int) : Bool :=
  match style.places with
  | none => true
  | some (low, high) => low ≤ place && place ≤ high

def Notation.exponent (style : Notation) (e : Int) : List Char :=
  'e' :: (if style.exponentPlus && 0 < e then ['+'] else []) ++ (Text.integer e).toList

def Notation.decimal (style : Notation) (d : Scientific) : List Char :=
  if style.isPositional d.leadingPlace then
    d.positional ++ if style.pointZero && 0 ≤ d.exponent then ['.', '0'] else []
  else d.significand ++ style.exponent d.leadingPlace

def Notation.magnitude (style : Notation) : Magnitude → List Char
  | .nan => ['N', 'a', 'N']
  | .infinite => ['i', 'n', 'f']
  | .finite 0 _ => if style.pointZero then ['0', '.', '0'] else ['0']
  | .finite m q => style.decimal (shortest m q)

def Notation.text (style : Notation) (x : Double) : String :=
  String.ofList ((if x.isNegative && !x.isNaN then ['-'] else []) ++ style.magnitude x.magnitude)

end QueryLoom.Floating
