import QueryLoom.Calendar.Basic
import QueryLoom.Json.Reader
import QueryLoom.Uuid
import QueryLoom.Value.Basic

/-!
# Values from other types

Numbers keep their kind; dates, times and identifiers become their texts; what may be missing
becomes NULL.

The kind of a value shows in the shape of its JSON: a whole number of 64 bits with a sign is an
integer, every other number a double, and an object is no value.
-/

set_option autoImplicit false

namespace QueryLoom.Value

def ofInt (n : Int) : Value := .int (Int64.ofInt n)

def ofSingleBits (bits : Nat) : Value := .float (Double.ofSingleBits bits)

def ofUuid (u : Uuid) : Value := .text u.text

def ofDate (d : Date) : Value := .text d.text

def ofDateTime (t : DateTime) : Value := .text t.text

def ofUtc (t : DateTime) : Value := .text t.utcText

def ofOption {α : Type} (convert : α → Value) : Option α → Value
  | none => .null
  | some a => convert a

def ofList {α : Type} (convert : α → Value) (items : List α) : Value := .list (items.map convert)

/-! ## JSON -/

mutual

def toJson : Value → Json
  | .null => .null
  | .bool b => .bool b
  | .int n => .int n.toInt
  | .float x => Json.ofDouble x
  | .text s => .string s
  | .list items => .array (itemsToJson items)

def itemsToJson : List Value → List Json
  | [] => []
  | v :: vs => v.toJson :: itemsToJson vs

end

mutual

def ofJson? : Json → Option Value
  | .null => some .null
  | .bool b => some (.bool b)
  | .int n =>
    match (Text.Range.signed 64).check n with
    | .ok n => some (.int (Int64.ofInt n))
    | .error _ => some (.float (Double.ofInt n))
  | .float x => some (.float x)
  | .string s => some (.text s)
  | .array items => (itemsOfJson? items).map .list
  | .object _ => none

def itemsOfJson? : List Json → Option (List Value)
  | [] => some []
  | j :: js => do
    let v ← ofJson? j
    let vs ← itemsOfJson? js
    some (v :: vs)

end

def readJson? (s : String) : Option Value := (Json.read? s).bind ofJson?

end QueryLoom.Value
