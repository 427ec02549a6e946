import QueryLoom.Text.Basic
import QueryLoom.Text.Case

/-!
# Comparison operators

The operators that a filter may use. Case and the amount of white space inside do not matter.
-/

set_option autoImplicit false

namespace QueryLoom

inductive Operator where
  | equal
  | notEqual
  | unequal
  | less
  | lessEqual
  | greater
  | greaterEqual
  | like
  | notLike
  | is
  | isNot
  deriving DecidableEq, Repr

namespace Operator

def all : List Operator :=
  [.equal, .notEqual, .unequal, .less, .lessEqual, .greater, .greaterEqual, .like, .notLike,
    .is, .isNot]

def text : Operator → String
  | .equal => "="
  | .notEqual => "!="
  | .unequal => "<>"
  | .less => "<"
  | .lessEqual => "<="
  | .greater => ">"
  | .greaterEqual => ">="
  | .like => "LIKE"
  | .notLike => "NOT LIKE"
  | .is => "IS"
  | .isNot => "IS NOT"

def canonical (s : String) : String :=
  String.ofList ((Text.collapse s.toList).flatMap Text.asciiCapitals)

def ofText? (s : String) : Option Operator := all.find? fun op => op.text == canonical s

def nullTest? : Operator → Option Operator
  | .equal => some .is
  | .is => some .is
  | .notEqual => some .isNot
  | .unequal => some .isNot
  | .isNot => some .isNot
  | _ => none

def onlyNull : Operator → Bool
  | .is => true
  | .isNot => true
  | _ => false

end Operator

end QueryLoom
