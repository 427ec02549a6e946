/-!
# White space and numerals

White space is the Unicode property White_Space. Texts are trimmed of it, cut into words at it,
and collapsed, so that one space stands between two words and none at either end.

Whole numbers are written as digits, and a signed decimal numeral is read within given limits. It
is refused at the first character that shows it cannot be one: a character that is no digit, or
the digit with which it leaves the limits.
-/

set_option autoImplicit false

namespace QueryLoom.Text

/-! ## White space -/

def isBlank (c : Char) : Bool :=
  let n := c.toNat
  (0x09 ≤ n && n ≤ 0x0D) || n == 0x20 || n == 0x85 || n == 0xA0 || n == 0x1680 ||
    (0x2000 ≤ n && n ≤ 0x200A) || n == 0x2028 || n == 0x2029 || n == 0x202F ||
    n == 0x205F || n == 0x3000

def trimStart (cs : List Char) : List Char := cs.dropWhile isBlank

def trimEnd (cs : List Char) : List Char := (cs.reverse.dropWhile isBlank).reverse

def trim (cs : List Char) : List Char := trimEnd (trimStart cs)

def pieces (p : Char → Bool) : List Char → List (List Char)
  | [] => [[]]
  | c :: cs =>
    if p c then [] :: pieces p cs
    else match pieces p cs with
      | [] => [[c]]
      | w :: ws => (c :: w) :: ws

def words (cs : List Char) : List (List Char) :=
  (pieces isBlank cs).filter fun w => !w.isEmpty

def collapse (cs : List Char) : List Char := [' '].intercalate (words cs)

/-! ## Numerals -/

def natural (n : Nat) : String := String.ofList (Nat.toDigits 10 n)

def integer (n : Int) : String :=
  if n < 0 then "-" ++ natural n.natAbs else natural n.natAbs

def zeroPadded (width : Nat) (cs : List Char) : List Char :=
  List.replicate (width - cs.length) '0' ++ cs

def paddedNatural (width n : Nat) : String :=
  String.ofList (zeroPadded width (Nat.toDigits 10 n))

def hex (n : Nat) : String := String.ofList (Nat.toDigits 16 n)

def paddedHex (width n : Nat) : String :=
  String.ofList (zeroPadded width (Nat.toDigits 16 n))

def hexBytes (bytes : List UInt8) : String :=
  String.join (bytes.map fun b => paddedHex 2 b.toNat)

def hexDigit? (c : Char) : Option Nat :=
  if c.isDigit then some (c.toNat - 48)
  else if 'a' ≤ c && c ≤ 'f' then some (c.toNat - 87)
  else if 'A' ≤ c && c ≤ 'F' then some (c.toNat - 55)
  else none

def hexValue? (cs : List Char) : Option Nat :=
  cs.foldlM (fun n c => (hexDigit? c).map (16 * n + ·)) 0

inductive NumeralError where
  | empty
  | invalidDigit
  | tooLarge
  | tooSmall
  deriving DecidableEq, Repr

def NumeralError.message : NumeralError → String
  | .empty => "cannot parse integer from empty string"
  | .invalidDigit => "invalid digit found in string"
  | .tooLarge => "number too large to fit in target type"
  | .tooSmall => "number too small to fit in target type"

/-- Value of a run of digits that continues `acc` and must not pass `limit`. -/
def boundedDigits (limit : Nat) (beyond : NumeralError) (acc : Nat) :
    List Char → Except NumeralError Nat
  | [] => .ok acc
  | c :: cs =>
    if c.isDigit then
      let next := 10 * acc + (c.toNat - 48)
      if next ≤ limit then boundedDigits limit beyond next cs else .error beyond
    else .error .invalidDigit

structure Range where
  below : Nat
  above : Nat
  deriving DecidableEq, Repr

def Range.signed (bits : Nat) : Range := ⟨Nat.pow 2 (bits - 1), Nat.pow 2 (bits - 1) - 1⟩

def Range.unsigned (bits : Nat) : Range := ⟨0, Nat.pow 2 bits - 1⟩

def Range.check (r : Range) (n : Int) : Except NumeralError Int :=
  if n < -(r.below : Int) then .error .tooSmall
  else if (r.above : Int) < n then .error .tooLarge
  else .ok n

/-- Reads an optional sign and digits. A range that ends at zero has no minus sign. -/
def Range.read (r : Range) (s : String) : Except NumeralError Int :=
  match s.toList with
  | [] => .error .empty
  | ['+'] => .error .invalidDigit
  | ['-'] => .error .invalidDigit
  | '+' :: cs => (boundedDigits r.above .tooLarge 0 cs).map Int.ofNat
  | '-' :: cs =>
    if r.below = 0 then .error .invalidDigit
    else (boundedDigits r.below .tooSmall 0 cs).map fun n => -(n : Int)
  | cs => (boundedDigits r.above .tooLarge 0 cs).map Int.ofNat

end QueryLoom.Text
