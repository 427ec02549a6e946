import QueryLoom.Json.Reader
import QueryLoom.Text.Utf8

/-!
# Types of parameters and columns

The server names a type for every parameter and every column. Types with a binary form of their
own are the scalars; arrays and domains are made from other types; all other types are known by
name alone. A type that is declared on the server is never a scalar, whatever its name.

A text is its UTF-8 bytes; a type whose texts have a version has the byte one in front of them. Of
the two types for JSON one has the text as its binary form, the other one a version and then the
text. The text of a cell may have been written in any way; it is written anew.
-/

set_option autoImplicit false

namespace QueryLoom

inductive Scalar where
  | bool
  | int2
  | int4
  | int8
  | oid
  | float4
  | float8
  | numeric
  | uuid
  | date
  | time
  | timestamp
  | timestamptz
  | interval
  | json
  | jsonb
  | bytea
  | varchar
  | text
  | bpchar
  | name
  | unknown
  deriving DecidableEq, Repr, Inhabited

namespace Scalar

def all : List Scalar :=
  [bool, int2, int4, int8, oid, float4, float8, numeric, uuid, date, time, timestamp, timestamptz,
    interval, json, jsonb, bytea, varchar, text, bpchar, name, unknown]

def catalogName : Scalar → String
  | .bool => "bool"
  | .int2 => "int2"
  | .int4 => "int4"
  | .int8 => "int8"
  | .oid => "oid"
  | .float4 => "float4"
  | .float8 => "float8"
  | .numeric => "numeric"
  | .uuid => "uuid"
  | .date => "date"
  | .time => "time"
  | .timestamp => "timestamp"
  | .timestamptz => "timestamptz"
  | .interval => "interval"
  | .json => "json"
  | .jsonb => "jsonb"
  | .bytea => "bytea"
  | .varchar => "varchar"
  | .text => "text"
  | .bpchar => "bpchar"
  | .name => "name"
  | .unknown => "unknown"

def isText : Scalar → Bool
  | .varchar => true
  | .text => true
  | .bpchar => true
  | .name => true
  | .unknown => true
  | _ => false

end Scalar

inductive WireType where
  | scalar (s : Scalar)
  | array (name : String) (element : WireType)
  | enumeration (name : String)
  | domain (name : String) (base : WireType)
  | other (name : String)
  deriving DecidableEq, Repr, Inhabited

namespace WireType

def catalogName : WireType → String
  | .scalar s => s.catalogName
  | .array name _ => name
  | .enumeration name => name
  | .domain name _ => name
  | .other name => name

def ofSimpleName (name : String) : WireType :=
  match Scalar.all.find? fun s => s.catalogName == name with
  | some s => .scalar s
  | none => .other name

/-- Two vectors of numbers have the form of arrays. -/
def ofElementName (name : String) : WireType :=
  if name = "int2vector" then .array name (.scalar .int2)
  else if name = "oidvector" then .array name (.scalar .oid)
  else ofSimpleName name

def ofCatalogName (name : String) : WireType :=
  match name.toList with
  | '_' :: element =>
    if name = "_record" then .other name
    else .array name (ofElementName (String.ofList element))
  | _ => ofElementName name

def isVersioned (t : WireType) : Bool := ["ltree", "lquery", "ltxtquery"].contains t.catalogName

def acceptsText (t : WireType) : Bool :=
  t.isVersioned || t.catalogName == "citext" ||
    match t with
    | .scalar s => s.isText
    | _ => false

def isTextual (t : WireType) : Bool :=
  t.acceptsText ||
    match t with
    | .enumeration _ => true
    | _ => false

end WireType

namespace Wire

/-! ## Texts -/

def textVersion : UInt8 := 1

def encodeText (t : WireType) (s : String) : List UInt8 :=
  (if t.isVersioned then [textVersion] else []) ++ Text.Utf8.encode s.toList

def stripVersion? : List UInt8 → Option (List UInt8)
  | [] => none
  | v :: bytes => if v = textVersion then some bytes else none

def decodeText? (t : WireType) (bytes : List UInt8) : Option String := do
  let bytes ← if t.isVersioned then stripVersion? bytes else some bytes
  (Text.Utf8.decode? bytes).map String.ofList

/-! ## JSON -/

def jsonVersion : UInt8 := 1

def jsonText (j : Json) : List UInt8 := Text.Utf8.encode j.chars

def jsonBinary (j : Json) : List UInt8 := jsonVersion :: jsonText j

def jsonOfText? (bytes : List UInt8) : Option Json :=
  (Text.Utf8.decode? bytes).bind fun cs => Json.read? (String.ofList cs)

def jsonOfBinary? : List UInt8 → Option Json
  | [] => none
  | v :: bytes => if v = jsonVersion then jsonOfText? bytes else none

end Wire

end QueryLoom
