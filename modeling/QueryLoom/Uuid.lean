import QueryLoom.Text.Basic

/-!
# Universally unique identifiers

Sixteen bytes, written as thirty-two base-sixteen digits in five groups. Readers also take the
digits without hyphens, the groups in braces, and the groups behind a resource name.
-/

set_option autoImplicit false

namespace QueryLoom

structure Uuid where
  bits : BitVec 128
  deriving DecidableEq, Repr

namespace Uuid

def ofNat (n : Nat) : Uuid := ⟨BitVec.ofNat 128 n⟩

def text (u : Uuid) : String :=
  let cs := Text.zeroPadded 32 (Nat.toDigits 16 u.bits.toNat)
  let group (start size : Nat) : String := String.ofList ((cs.drop start).take size)
  "-".intercalate [group 0 8, group 8 4, group 12 4, group 16 4, group 20 12]

def ofDigits? (cs : List Char) : Option Uuid :=
  if cs.length = 32 then (Text.hexValue? cs).map ofNat else none

def ofGroups? (cs : List Char) : Option Uuid :=
  let isHyphenPlace (i : Nat) : Bool := i == 8 || i == 13 || i == 18 || i == 23
  let numbered := cs.zip (List.range cs.length)
  if cs.length = 36 && numbered.all fun (c, i) => isHyphenPlace i == (c == '-') then
    ofDigits? (cs.filter (· != '-'))
  else none

def resourcePrefix : List Char := ['u', 'r', 'n', ':', 'u', 'u', 'i', 'd', ':']

def ofResourceName? (cs : List Char) : Option Uuid :=
  if (cs.take resourcePrefix.length).map Char.toLower = resourcePrefix then
    ofGroups? (cs.drop resourcePrefix.length)
  else none

def ofBraces? : List Char → Option Uuid
  | '\x7b' :: cs =>
    match cs.reverse with
    | '\x7d' :: inner => ofGroups? inner.reverse
    | _ => none
  | _ => none

def read? (s : String) : Option Uuid :=
  let cs := s.toList
  ofDigits? cs <|> ofGroups? cs <|> ofBraces? cs <|> ofResourceName? cs

def bytes (u : Uuid) : List UInt8 :=
  (List.range 16).map fun i => UInt8.ofNat (u.bits.toNat / Nat.pow 256 (15 - i))

def ofBytes? (bs : List UInt8) : Option Uuid :=
  if bs.length = 16 then some (ofNat (bs.foldl (fun n b => 256 * n + b.toNat) 0)) else none

end Uuid

end QueryLoom
