/-!
# Words of bytes

The binary form of values is made of words of a fixed number of bytes, the most significant byte
first. A signed word is the two's complement. A reader takes words off the front of what is left.
-/

set_option autoImplicit false

namespace QueryLoom.Wire

abbrev Cell := Option (List UInt8)

def word : Nat → Nat → List UInt8
  | 0, _ => []
  | width + 1, n => UInt8.ofNat (n / Nat.pow 256 width) :: word width n

def signedWord (width : Nat) (n : Int) : List UInt8 :=
  word width (n % Nat.pow 256 width).toNat

def unsigned (bytes : List UInt8) : Nat := bytes.foldl (fun n b => 256 * n + b.toNat) 0

def signed (bytes : List UInt8) : Int :=
  let n := unsigned bytes
  if 2 * n < Nat.pow 256 bytes.length then n else (n : Int) - Nat.pow 256 bytes.length

def exactly? (width : Nat) (bytes : List UInt8) : Option (List UInt8) :=
  if bytes.length = width then some bytes else none

def unsigned? (width : Nat) (bytes : List UInt8) : Option Nat := (exactly? width bytes).map unsigned

def signed? (width : Nat) (bytes : List UInt8) : Option Int := (exactly? width bytes).map signed

abbrev Reader (α : Type) := StateT (List UInt8) Option α

namespace Reader

def take (n : Nat) : Reader (List UInt8) := fun bytes =>
  if n ≤ bytes.length then some (bytes.take n, bytes.drop n) else none

def unsigned (width : Nat) : Reader Nat := return Wire.unsigned (← take width)

def signed (width : Nat) : Reader Int := return Wire.signed (← take width)

def finish : Reader Unit := fun bytes => if bytes.isEmpty then some ((), []) else none

def times {α : Type} (read : Reader α) : Nat → Reader (List α)
  | 0 => return []
  | n + 1 => do
    let a ← read
    let as ← times read n
    return a :: as

end Reader

end QueryLoom.Wire
