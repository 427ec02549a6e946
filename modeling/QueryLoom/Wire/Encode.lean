import QueryLoom.Calendar.Reader
import QueryLoom.Decimal.OfDouble
import QueryLoom.Decimal.Reader
import QueryLoom.Floating.Numeral
import QueryLoom.Uuid
import QueryLoom.Value.Convert
import QueryLoom.Value.Text
import QueryLoom.Wire.Moment
import QueryLoom.Wire.Numeric
import QueryLoom.Wire.Type

/-!
# Values as parameters

A value takes the binary form of the type that the server wants, where the kind of the value has
a counterpart there. Numbers keep within the range of the type, and a text is read as a value of
the type. NULL is a parameter of every type, a list of none.
-/

set_option autoImplicit false

namespace QueryLoom

inductive ParameterKind where
  | bool
  | int
  | float
  | text
  deriving DecidableEq, Repr

def ParameterKind.name : ParameterKind → String
  | .bool => "bool"
  | .int => "i64"
  | .float => "f64"
  | .text => "alloc::string::String"

inductive EncodeError where
  | wrongType (kind : ParameterKind) (typeName : String)
  | list
  | nonFiniteJson
  | range (cause : Text.NumeralError)
  | integer (cause : Text.NumeralError)
  | float (cause : Floating.NumeralError)
  | bool
  | decimal
  | uuid
  | calendar
  | json
  deriving DecidableEq, Repr

def EncodeError.message : EncodeError → String
  | .wrongType kind typeName =>
    "cannot convert between the Rust type `" ++ kind.name ++ "` and the Postgres type `" ++
      typeName ++ "`"
  | .list => "list values cannot be bound as a single parameter"
  | .nonFiniteJson => "non-finite float cannot be encoded as JSON"
  | .range cause => cause.message
  | .integer cause => cause.message
  | .float cause => cause.message
  | .bool => "provided string was not `true` or `false`"
  | .decimal => "no decimal of 96 bits and 28 places"
  | .uuid => "no universally unique identifier"
  | .calendar => "no date or time of the calendar"
  | .json => "no JSON text"

namespace Wire

def boolByte (b : Bool) : List UInt8 := [if b then 1 else 0]

def doubleBytes (x : Double) : List UInt8 := word 8 x.bits.toNat

def encodeRead {α : Type} (cause : EncodeError) (bytes : α → List UInt8) :
    Option α → Except EncodeError (List UInt8)
  | some a => .ok (bytes a)
  | none => .error cause

def encodeAsText (kind : ParameterKind) (t : WireType) (s : String) :
    Except EncodeError (List UInt8) :=
  if t.isTextual then .ok (encodeText t s) else .error (.wrongType kind t.catalogName)

def encodeBool (b : Bool) (t : WireType) : Except EncodeError (List UInt8) :=
  match t with
  | .scalar .bool => .ok (boolByte b)
  | .scalar .json => .ok (jsonText (.bool b))
  | .scalar .jsonb => .ok (jsonBinary (.bool b))
  | t => encodeAsText .bool t (Value.boolText b)

def encodeRanged (width : Nat) (r : Text.Range) (n : Int64) : Except EncodeError (List UInt8) :=
  ((r.check n.toInt).mapError .range).map (signedWord width)

def encodeInt (n : Int64) (t : WireType) : Except EncodeError (List UInt8) :=
  match t with
  | .scalar .int2 => encodeRanged 2 (.signed 16) n
  | .scalar .int4 => encodeRanged 4 (.signed 32) n
  | .scalar .int8 => .ok (signedWord 8 n.toInt)
  | .scalar .oid => encodeRanged 4 (.unsigned 32) n
  | .scalar .float4 =>
    let sign := if n < 0 then Floating.single.signBit else 0
    .ok (word 4 (sign + Floating.single.nearest n.toInt.natAbs 1))
  | .scalar .float8 => .ok (doubleBytes (Double.ofInt n.toInt))
  | .scalar .numeric => .ok (Numeric.ofDecimal (Decimal.ofInt64 n)).bytes
  | .scalar .json => .ok (jsonText (.int n.toInt))
  | .scalar .jsonb => .ok (jsonBinary (.int n.toInt))
  | t => encodeAsText .int t (Text.integer n.toInt)

def finiteJson (x : Double) : Except EncodeError Json :=
  if x.isFinite then .ok (.float x) else .error .nonFiniteJson

def encodeDouble (x : Double) (t : WireType) : Except EncodeError (List UInt8) :=
  match t with
  | .scalar .float4 => .ok (word 4 x.toSingleBits)
  | .scalar .float8 => .ok (doubleBytes x)
  | .scalar .numeric =>
    encodeRead .decimal (fun d => (Numeric.ofDecimal d).bytes) (Decimal.ofDouble? x)
  | .scalar .json => (finiteJson x).map jsonText
  | .scalar .jsonb => (finiteJson x).map jsonBinary
  | t => encodeAsText .float t (Floating.plain.text x)

def readBool? : String → Option Bool
  | "true" => some true
  | "false" => some false
  | _ => none

def encodeNumeral (width : Nat) (s : String) : Except EncodeError (List UInt8) :=
  (((Text.Range.signed (8 * width)).read s).mapError .integer).map (signedWord width)

def encodeString (s : String) (t : WireType) : Except EncodeError (List UInt8) :=
  match t with
  | .scalar .int2 => encodeNumeral 2 s
  | .scalar .int4 => encodeNumeral 4 s
  | .scalar .int8 => encodeNumeral 8 s
  | .scalar .float4 => ((Double.readSingleBits s).mapError .float).map (word 4)
  | .scalar .float8 => ((Double.read s).mapError .float).map doubleBytes
  | .scalar .numeric =>
    encodeRead .decimal (fun d => (Numeric.ofDecimal d).bytes) (Decimal.read? s)
  | .scalar .bool => encodeRead .bool boolByte (readBool? s)
  | .scalar .uuid => encodeRead .uuid Uuid.bytes (Uuid.read? s)
  | .scalar .date => encodeRead .calendar encodeDate (Date.read? s)
  | .scalar .time => encodeRead .calendar encodeTime (Time.read? s)
  | .scalar .timestamp => encodeRead .calendar encodeDateTime (DateTime.read? s)
  | .scalar .timestamptz =>
    encodeRead .calendar (fun m => encodeMoment m.1 m.2) (DateTime.readWithOffset? s)
  | .scalar .json => encodeRead .json jsonText (Json.read? s)
  | .scalar .jsonb => encodeRead .json jsonBinary (Json.read? s)
  | .scalar .bytea => .ok (Text.Utf8.encode s.toList)
  | t => encodeAsText .text t s

end Wire

def Value.encode (v : Value) (t : WireType) : Except EncodeError Wire.Cell :=
  match v with
  | .null => .ok none
  | .bool b => (Wire.encodeBool b t).map some
  | .int n => (Wire.encodeInt n t).map some
  | .float x => (Wire.encodeDouble x t).map some
  | .text s => (Wire.encodeString s t).map some
  | .list _ => .error .list

end QueryLoom
