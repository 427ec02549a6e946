import QueryLoom.Error
import QueryLoom.Value.Convert

/-!
# Records

One row of a result: column names with their values in the order of the result. A name may occur
more than once; the first one answers. A column is read at a type, and the error of a reading
names the column.
-/

set_option autoImplicit false

namespace QueryLoom

structure Record where
  fields : List (String × Value) := []
  deriving Repr, Inhabited

namespace Record

def empty : Record := {}

def push (r : Record) (column : String) (value : Value) : Record :=
  ⟨r.fields ++ [(column, value)]⟩

def get? (r : Record) (column : String) : Option Value := r.fields.lookup column

def columns (r : Record) : List String := r.fields.map Prod.fst

def size (r : Record) : Nat := r.fields.length

def isEmpty (r : Record) : Bool := r.fields.isEmpty

def toJson (r : Record) : Json := .object (r.fields.map fun f => (f.1, f.2.toJson))

end Record

abbrev Value.Reader (α : Type) := Value → Except DecodeError α

namespace Value.Reader

def value : Reader Value := .ok

def int64 : Reader Int64
  | .int n => .ok n
  | .text s =>
    match (Text.Range.signed 64).read s with
    | .ok n => .ok (Int64.ofInt n)
    | .error e => .error (.numeral e)
  | v => .error (.unexpected .integer v)

def int32 : Reader Int := fun v => do
  let n ← int64 v
  match (Text.Range.signed 32).check n.toInt with
  | .ok n => .ok n
  | .error e => .error (.numeral e)

def double : Reader Double
  | .float x => .ok x
  | .int n => .ok (Double.ofInt n.toInt)
  | v => .error (.unexpected .float v)

def bool : Reader Bool
  | .bool b => .ok b
  | .int n => .ok (n != 0)
  | v => .error (.unexpected .bool v)

def string : Reader String
  | .text s => .ok s
  | .null => .error .unexpectedNull
  | v => .ok v.bare

def optional {α : Type} (read : Reader α) : Reader (Option α)
  | .null => .ok none
  | v => (read v).map some

end Value.Reader

def Record.read {α : Type} (r : Record) (column : String) (reader : Value.Reader α) :
    Except Error α :=
  match r.get? column with
  | none => .error (.decode column .missingColumn)
  | some v => (reader v).mapError (.decode column)

end QueryLoom
