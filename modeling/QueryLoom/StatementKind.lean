import QueryLoom.Text.Basic
import QueryLoom.Text.Case

/-!
# Statement kinds

A statement is classified by its first keyword, which white space and opening parentheses may
precede.
-/

set_option autoImplicit false

namespace QueryLoom

inductive StatementKind where
  | select
  | inspect
  | insert
  | update
  | delete
  | other
  deriving DecidableEq, Repr

namespace StatementKind

def keyword (cs : List Char) : List Char :=
  ((cs.dropWhile fun c => Text.isBlank c || c == '(').takeWhile Text.isAsciiLetter).map
    Char.toUpper

def ofKeyword : String → StatementKind
  | "SELECT" => .select
  | "WITH" => .select
  | "VALUES" => .select
  | "TABLE" => .select
  | "SHOW" => .inspect
  | "EXPLAIN" => .inspect
  | "DESCRIBE" => .inspect
  | "DESC" => .inspect
  | "INSERT" => .insert
  | "UPDATE" => .update
  | "DELETE" => .delete
  | _ => .other

def detect (sql : String) : StatementKind := ofKeyword (String.ofList (keyword sql.toList))

def name : StatementKind → String
  | .select => "select"
  | .inspect => "show"
  | .insert => "insert"
  | .update => "update"
  | .delete => "delete"
  | .other => "other"

def returnsRows : StatementKind → Bool
  | .select => true
  | .inspect => true
  | _ => false

def isCacheable (k : StatementKind) : Bool := k.returnsRows

def isMutation : StatementKind → Bool
  | .insert => true
  | .update => true
  | .delete => true
  | _ => false

end StatementKind

end QueryLoom
