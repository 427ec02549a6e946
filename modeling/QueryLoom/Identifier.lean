import QueryLoom.Error

/-!
# Identifiers

Names of tables and columns are normalised before they are checked: trimmed, in lower case, with
one underscore for white space inside. A name is then a letter or underscore followed by letters,
digits and underscores, all ASCII and lower case. A table name gets the table prefix in front
before it is checked. Raw fragments go into statements as they are, so they must not hold the
marks with which a statement or a comment ends or begins.
-/

set_option autoImplicit false

namespace QueryLoom

namespace Identifier
open Text

def normalize (s : String) : String :=
  String.ofList (['_'].intercalate (words (lower (trim s.toList))))

def isStart (c : Char) : Bool := c == '_' || c.isLower

def isPart (c : Char) : Bool := isStart c || c.isDigit

def check (name : String) : Except Error String :=
  match name.toList with
  | [] => .error (.usage .emptyIdentifier)
  | c :: cs =>
    if isStart c then
      match cs.find? fun c => !isPart c with
      | none => .ok name
      | some c => .error (.usage (.identifierPart c name))
    else .error (.usage (.identifierStart c name))

def column (s : String) : Except Error String := check (normalize s)

def table (tablePrefix s : String) : Except Error String := check (tablePrefix ++ normalize s)

end Identifier

structure ColumnRef where
  table : Option String
  column : String
  deriving DecidableEq, Repr

def ColumnRef.parse (tablePrefix s : String) : Except Error ColumnRef := do
  let cs := s.toList
  match cs.dropWhile (· != '.') with
  | [] => return ⟨none, ← Identifier.column s⟩
  | _ :: rest =>
    let table ← Identifier.table tablePrefix (String.ofList (cs.takeWhile (· != '.')))
    return ⟨some table, ← Identifier.column (String.ofList rest)⟩

namespace Identifier
open Text

def splitList (s : String) : List String :=
  (((pieces (· == ',') s.toList).map trim).filter fun cs => !cs.isEmpty).map String.ofList

def occurs (needle : List Char) : List Char → Bool
  | [] => needle.isEmpty
  | c :: cs => needle.isPrefixOf (c :: cs) || occurs needle cs

def rawFragment (kind s : String) : Except Error String :=
  let cs := trim s.toList
  if cs.isEmpty then .error (.usage (.emptyFragment kind))
  else match Marker.all.find? fun m => occurs m.chars cs with
    | some m => .error (.usage (.forbiddenSequence kind m))
    | none => .ok (String.ofList cs)

end Identifier

end QueryLoom
