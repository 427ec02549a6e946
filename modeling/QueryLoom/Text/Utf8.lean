/-!
# UTF-8

Characters as bytes, and bytes as characters. Where bytes are no character, the longest start of
one that they form counts as a single gap; a lossy reading puts a replacement character for it.
-/

set_option autoImplicit false

namespace QueryLoom.Text.Utf8

def encode (cs : List Char) : List UInt8 := cs.flatMap String.utf8EncodeChar

def isContinuation (b : UInt8) : Bool := 0x80 ≤ b && b ≤ 0xBF

def followsThree (lead b : UInt8) : Bool :=
  if lead = 0xE0 then 0xA0 ≤ b && b ≤ 0xBF
  else if lead = 0xED then 0x80 ≤ b && b ≤ 0x9F
  else isContinuation b

def followsFour (lead b : UInt8) : Bool :=
  if lead = 0xF0 then 0x90 ≤ b && b ≤ 0xBF
  else if lead = 0xF4 then 0x80 ≤ b && b ≤ 0x8F
  else isContinuation b

/-- The character of a lead byte, of which `low` bits count, and its continuation bytes. -/
def assemble (lead : UInt8) (low : Nat) (tail : List UInt8) : Char :=
  Char.ofNat (tail.foldl (fun n b => 64 * n + b.toNat % 64) (lead.toNat % Nat.pow 2 low))

def scan : List UInt8 → List (Option Char)
  | [] => []
  | a :: as =>
    if a < 0x80 then some (Char.ofNat a.toNat) :: scan as
    else if 0xC2 ≤ a && a ≤ 0xDF then
      match as with
      | [] => [none]
      | b :: bs =>
        if isContinuation b then some (assemble a 5 [b]) :: scan bs else none :: scan (b :: bs)
    else if 0xE0 ≤ a && a ≤ 0xEF then
      match as with
      | [] => [none]
      | b :: bs =>
        if followsThree a b then
          match bs with
          | [] => [none]
          | c :: cs =>
            if isContinuation c then some (assemble a 4 [b, c]) :: scan cs
            else none :: scan (c :: cs)
        else none :: scan (b :: bs)
    else if 0xF0 ≤ a && a ≤ 0xF4 then
      match as with
      | [] => [none]
      | b :: bs =>
        if followsFour a b then
          match bs with
          | [] => [none]
          | c :: cs =>
            if isContinuation c then
              match cs with
              | [] => [none]
              | d :: ds =>
                if isContinuation d then some (assemble a 3 [b, c, d]) :: scan ds
                else none :: scan (d :: ds)
            else none :: scan (c :: cs)
        else none :: scan (b :: bs)
    else none :: scan as

def decode? (bytes : List UInt8) : Option (List Char) := (scan bytes).mapM id

def decodeLossy (bytes : List UInt8) : List Char := (scan bytes).map fun c => c.getD '\uFFFD'

end QueryLoom.Text.Utf8
