import QueryLoom.Error
import QueryLoom.Json.Reader

/-!
# Dialects

The two dialects of SQL, which differ in a few clauses. Each has a name of its own and accepts
other names for it.
-/

set_option autoImplicit false

namespace QueryLoom

inductive Dialect where
  | mySql
  | postgres
  deriving DecidableEq, Repr, Inhabited

namespace Dialect

def name : Dialect → String
  | .mySql => "mysql"
  | .postgres => "postgres"

def ofName? : String → Option Dialect
  | "mysql" => some .mySql
  | "mariadb" => some .mySql
  | "postgres" => some .postgres
  | "postgresql" => some .postgres
  | "pg" => some .postgres
  | _ => none

def parse (s : String) : Except Error Dialect :=
  let name := Text.asciiLower (String.ofList (Text.trim s.toList))
  match ofName? name with
  | some d => .ok d
  | none => .error (.usage (.unknownDialect name))

/-- A name as a string, or as the only member of an object, whose value is null. -/
def ofRaw? : Json.Raw → Option Dialect
  | .string parts => (Json.string? parts).bind ofName?
  | .object [(key, .null)] => (Json.string? key).bind ofName?
  | _ => none

/-- A lone first number is the row count; with a second one it is the offset. -/
def limit (d : Dialect) (offset : Nat) : Option Nat → String
  | none => "LIMIT " ++ Text.natural offset
  | some count =>
    match d with
    | .mySql => "LIMIT " ++ Text.natural offset ++ ", " ++ Text.natural count
    | .postgres => "LIMIT " ++ Text.natural count ++ " OFFSET " ++ Text.natural offset

def groupConcat (d : Dialect) (expr label : String) : String :=
  match d with
  | .mySql => "GROUP_CONCAT(" ++ expr ++ ") AS " ++ label
  | .postgres => "string_agg((" ++ expr ++ ")::text, ',') AS " ++ label

end Dialect

end QueryLoom
