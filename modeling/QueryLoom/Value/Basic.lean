import QueryLoom.Floating.Double

/-!
# Values

A value travels beside a statement as a bound parameter, or comes back in a row. Lists serve only
as operands of filters.
-/

set_option autoImplicit false

namespace QueryLoom

inductive Value where
  | null
  | bool (b : Bool)
  | int (n : Int64)
  | float (x : Double)
  | text (s : String)
  | list (items : List Value)
  deriving Repr, Inhabited

namespace Value

def isNull : Value → Bool
  | .null => true
  | _ => false

def isList : Value → Bool
  | .list _ => true
  | _ => false

def text? : Value → Option String
  | .text s => some s
  | _ => none

def int? : Value → Option Int64
  | .int n => some n
  | _ => none

mutual

/-- Equality of values, with the equality of arithmetic on doubles: a value with something in it
that is not a number is not the same as itself. -/
def same : Value → Value → Bool
  | .null, .null => true
  | .bool a, .bool b => a == b
  | .int m, .int n => m == n
  | .float x, .float y => x.same y
  | .text s, .text t => s == t
  | .list vs, .list ws => sameItems vs ws
  | _, _ => false

def sameItems : List Value → List Value → Bool
  | [], [] => true
  | v :: vs, w :: ws => v.same w && sameItems vs ws
  | _, _ => false

end

end Value

end QueryLoom
