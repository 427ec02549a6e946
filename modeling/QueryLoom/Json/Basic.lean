import QueryLoom.Floating.Text

/-!
# JSON values and their text

Numbers are whole numbers or doubles. The text has no blanks; a string escapes only the quote,
the backslash and the control characters below the space; an object keeps the order of its
members.
-/

set_option autoImplicit false

namespace QueryLoom

inductive Json where
  | null
  | bool (b : Bool)
  | int (n : Int)
  | float (x : Double)
  | string (s : String)
  | array (items : List Json)
  | object (members : List (String × Json))
  deriving Repr, Inhabited

namespace Json

def escape (c : Char) : List Char :=
  match c with
  | '"' => ['\\', '"']
  | '\\' => ['\\', '\\']
  | '\x08' => ['\\', 'b']
  | '\x0c' => ['\\', 'f']
  | '\n' => ['\\', 'n']
  | '\r' => ['\\', 'r']
  | '\t' => ['\\', 't']
  | c =>
    if c.toNat < 0x20 then
      ['\\', 'u'] ++ Text.zeroPadded 4 (Nat.toDigits 16 c.toNat)
    else [c]

def quote (s : String) : List Char := '"' :: s.toList.flatMap escape ++ ['"']

mutual

def chars : Json → List Char
  | .null => ['n', 'u', 'l', 'l']
  | .bool true => ['t', 'r', 'u', 'e']
  | .bool false => ['f', 'a', 'l', 's', 'e']
  | .int n => (Text.integer n).toList
  | .float x => (Floating.json.text x).toList
  | .string s => quote s
  | .array items => '[' :: itemChars items ++ [']']
  | .object members => '{' :: memberChars members ++ ['}']

def itemChars : List Json → List Char
  | [] => []
  | [v] => v.chars
  | v :: w :: vs => v.chars ++ ',' :: itemChars (w :: vs)

def memberChars : List (String × Json) → List Char
  | [] => []
  | [(k, v)] => quote k ++ ':' :: v.chars
  | (k, v) :: m :: ms => quote k ++ ':' :: v.chars ++ ',' :: memberChars (m :: ms)

end

def text (j : Json) : String := String.ofList j.chars

/-- A double as JSON: what is infinite or no number has no notation and becomes null. -/
def ofDouble (x : Double) : Json := if x.isFinite then .float x else .null

end Json

end QueryLoom
