import QueryLoom.Decimal.Basic
import QueryLoom.Value.Convert
import QueryLoom.Wire.Moment
import QueryLoom.Wire.Numeric
import QueryLoom.Wire.Type

/-!
# Cells as values

The binary form of a cell becomes a value of the kind that fits its type. Types without a kind of
their own become texts: numbers of arbitrary precision, dates and times, and JSON as they are
written, bytes as hexadecimal digits, and everything else as the characters that its bytes are.
-/

set_option autoImplicit false

namespace QueryLoom

namespace Wire

def bool? (bytes : List UInt8) : Option Bool := (unsigned? 1 bytes).map (· != 0)

def signedValue? (width : Nat) (bytes : List UInt8) : Option Value :=
  (signed? width bytes).map Value.ofInt

def unsignedValue? (width : Nat) (bytes : List UInt8) : Option Value :=
  (unsigned? width bytes).map fun n => Value.ofInt n

def hexText (bytes : List UInt8) : String := "\\x" ++ Text.hexBytes bytes

def lossyText (bytes : List UInt8) : String := String.ofList (Text.Utf8.decodeLossy bytes)

def decodeScalar? (bytes : List UInt8) : Scalar → Option Value
  | .bool => (bool? bytes).map .bool
  | .int2 => signedValue? 2 bytes
  | .int4 => signedValue? 4 bytes
  | .int8 => signedValue? 8 bytes
  | .oid => unsignedValue? 4 bytes
  | .float4 => (unsigned? 4 bytes).map Value.ofSingleBits
  | .float8 => (unsigned? 8 bytes).map fun bits => .float ⟨UInt64.ofNat bits⟩
  | .numeric => do
    let d ← (← Numeric.ofBytes? bytes).toDecimal?
    return .text d.text
  | .uuid => (Uuid.ofBytes? bytes).map Value.ofUuid
  | .date => (decodeDate? bytes).map Value.ofDate
  | .time => (decodeTime? bytes).map fun t => .text t.text
  | .timestamp => (decodeDateTime? bytes).map Value.ofDateTime
  | .timestamptz => (decodeDateTime? bytes).map Value.ofUtc
  | .interval => (Interval.ofBytes? bytes).map fun i => .text i.text
  | .json => (jsonOfText? bytes).map fun j => .text j.text
  | .jsonb => (jsonOfBinary? bytes).map fun j => .text j.text
  | .bytea => some (.text (hexText bytes))
  | _ => some (.text (lossyText bytes))

/-- The number of elements in an array with the lengths of its dimensions in front. A count needs
31 bits, and so does every product on the way. -/
def dimensionCount : Nat → Nat → Reader Nat
  | 0, count => return count
  | n + 1, count => do
    let length ← Reader.signed 4
    let _ ← Reader.signed 4
    if length < 0 || 0x80000000 ≤ count * length.toNat then failure
    dimensionCount n (count * length.toNat)

def element : Reader Cell := do
  let length ← Reader.signed 4
  if length < 0 then return none else return some (← Reader.take length.toNat)

def elements : Reader (List Cell) := do
  let dimensions ← Reader.signed 4
  let _ ← Reader.take 8
  if dimensions < 0 then failure
  let count ← dimensionCount dimensions.toNat (if dimensions = 0 then 0 else 1)
  if 1 < dimensions then failure
  let cells ← Reader.times element count
  Reader.finish
  return cells

def elements? (bytes : List UInt8) : Option (List Cell) := (elements.run bytes).map Prod.fst

def decode? : WireType → List UInt8 → Option Value
  | .scalar s, bytes => decodeScalar? bytes s
  | .domain _ base, bytes => decode? base bytes
  | .array _ element, bytes => do
    let cells ← elements? bytes
    let values ← cells.mapM fun cell => match cell with
      | none => some .null
      | some bytes => decode? element bytes
    return .list values
  | .enumeration _, bytes => some (.text (lossyText bytes))
  | .other _, bytes => some (.text (lossyText bytes))

def decodeCell? (t : WireType) : Cell → Option Value
  | none => some .null
  | some bytes => decode? t bytes

end Wire

end QueryLoom
