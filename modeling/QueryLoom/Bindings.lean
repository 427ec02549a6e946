import QueryLoom.Value.Convert

/-!
# Bindings

Values by key, in the order in which the keys came first. A key that is bound again keeps its
place.
-/

set_option autoImplicit false

namespace QueryLoom

structure Bindings where
  entries : List (String × Value) := []
  deriving Repr, Inhabited

namespace Bindings

def empty : Bindings := {}

def put (key : String) (value : Value) : List (String × Value) → List (String × Value)
  | [] => [(key, value)]
  | (k, v) :: rest => if k = key then (k, value) :: rest else (k, v) :: put key value rest

def insert (b : Bindings) (key : String) (value : Value) : Bindings :=
  ⟨put key value b.entries⟩

def contains (b : Bindings) (key : String) : Bool := b.entries.any fun e => e.1 == key

def get? (b : Bindings) (key : String) : Option Value := b.entries.lookup key

def extend (b other : Bindings) : Bindings :=
  other.entries.foldl (fun acc e => acc.insert e.1 e.2) b

def ofList (pairs : List (String × Value)) : Bindings := empty.extend ⟨pairs⟩

def keys (b : Bindings) : List String := b.entries.map Prod.fst

def size (b : Bindings) : Nat := b.entries.length

def isEmpty (b : Bindings) : Bool := b.entries.isEmpty

def same (b other : Bindings) : Bool :=
  b.keys == other.keys && Value.sameItems (b.entries.map Prod.snd) (other.entries.map Prod.snd)

def toJson (b : Bindings) : Json :=
  .object [("entries", .array (b.entries.map fun e => .array [.string e.1, e.2.toJson]))]

end Bindings

end QueryLoom
