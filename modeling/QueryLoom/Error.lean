import QueryLoom.Chain.Operator
import QueryLoom.Value.Text

/-!
# Errors and attempts

An error is its cause; the wording of each cause stands in one place. Usage errors come from the
caller and are raised by the verb that is misused; the other kinds come from the connection, the
server, a row that does not fit, or a text that is no valid data.

An attempt works on a state and may fail. What it did to the state before it failed stays done,
so the state after a failure is part of its result.
-/

set_option autoImplicit false

namespace QueryLoom

inductive Marker where
  | statementEnd
  | lineComment
  | commentStart
  | commentEnd
  | nul
  deriving DecidableEq, Repr

namespace Marker

def all : List Marker := [.statementEnd, .lineComment, .commentStart, .commentEnd, .nul]

def chars : Marker → List Char
  | .statementEnd => [';']
  | .lineComment => ['-', '-']
  | .commentStart => ['/', '*']
  | .commentEnd => ['*', '/']
  | .nul => ['\x00']

def shown : Marker → String
  | .nul => "\\u\x7b0\x7d"
  | m => String.ofList m.chars

end Marker

inductive UsageError where
  | emptyIdentifier
  | identifierStart (c : Char) (name : String)
  | identifierPart (c : Char) (name : String)
  | emptyFragment (kind : String)
  | forbiddenSequence (kind : String) (marker : Marker)
  | unknownDialect (name : String)
  | unsupportedOperator (text : String)
  | operatorNeedsNull (op : Operator)
  | nestedList
  | listAssigned (column : String)
  | noTable
  | noOperation
  | emptyInsert
  | emptyUpdate
  | notMutation
  | noColumns
  | tableMissing (table : String)
  | columnExists (column table : String)
  | columnMissing (column table : String)
  | noActiveColumn
  | activeColumnGone (column table : String)
  | unboundPlaceholder (name : String)
  | other (message : String)
  deriving DecidableEq, Repr

def UsageError.message : UsageError → String
  | .emptyIdentifier => "Identifier cannot be empty"
  | .identifierStart c name =>
    "Invalid identifier start character '" ++ String.singleton c ++ "' in '" ++ name ++ "'"
  | .identifierPart c name =>
    "Invalid character '" ++ String.singleton c ++ "' in identifier '" ++ name ++ "'"
  | .emptyFragment kind => kind ++ " cannot be empty"
  | .forbiddenSequence kind marker =>
    kind ++ " contains forbidden sequence '" ++ marker.shown ++ "'"
  | .unknownDialect name => "unknown dialect '" ++ name ++ "'"
  | .unsupportedOperator text => "unsupported operator '" ++ text ++ "'"
  | .operatorNeedsNull op => "operator " ++ op.text ++ " only accepts NULL"
  | .nestedList => "nested list values are not supported"
  | .listAssigned column => "column '" ++ column ++ "' cannot be assigned a list value"
  | .noTable => "no table selected for this query"
  | .noOperation => "no operation recorded for this query"
  | .emptyInsert => "INSERT requires at least one value"
  | .emptyUpdate => "UPDATE requires at least one assignment"
  | .notMutation => "query() requires an INSERT, UPDATE or DELETE operation"
  | .noColumns => "CREATE TABLE requires at least one column"
  | .tableMissing table => "table '" ++ table ++ "' does not exist"
  | .columnExists column table => "column '" ++ column ++ "' already exists in '" ++ table ++ "'"
  | .columnMissing column table => "column '" ++ column ++ "' does not exist in '" ++ table ++ "'"
  | .noActiveColumn => "no active column; call modify_column(name, None) first"
  | .activeColumnGone column table =>
    "active column '" ++ column ++ "' no longer exists in '" ++ table ++ "'"
  | .unboundPlaceholder name => "no value bound for placeholder :" ++ name
  | .other message => message

inductive ValueKind where
  | integer
  | float
  | bool
  deriving DecidableEq, Repr

def ValueKind.name : ValueKind → String
  | .integer => "integer"
  | .float => "float"
  | .bool => "bool"

inductive DecodeError where
  | missingColumn
  | unexpectedNull
  | unexpected (wanted : ValueKind) (got : Value)
  | numeral (e : Text.NumeralError)
  | wrongColumnType
  | malformed
  | other (message : String)
  deriving Repr

def DecodeError.message : DecodeError → String
  | .missingColumn => "column not present in row"
  | .unexpectedNull => "unexpected NULL"
  | .unexpected wanted got => "expected " ++ wanted.name ++ ", got " ++ got.diagnosis
  | .numeral e => e.message
  | .wrongColumnType => "column type does not fit"
  | .malformed => "cell has no valid binary form"
  | .other message => message

inductive Error where
  | usage (cause : UsageError)
  | connection (message : String)
  | query (code : Option String)
  | decode (column : String) (cause : DecodeError)
  | serialization (message : String)
  | pool (message : String)
  | other (message : String)
  deriving Repr

namespace Error

def message : Error → String
  | .usage cause => "Usage error: " ++ cause.message
  | .connection message => "Connection error: " ++ message
  | .query none => "Query error: statement not sent"
  | .query (some code) => "Query error: " ++ code
  | .decode column cause => "Decode error on column '" ++ column ++ "': " ++ cause.message
  | .serialization message => "Serialization error: " ++ message
  | .pool message => "Pool error: " ++ message
  | .other message => message

def isUsage : Error → Bool
  | .usage _ => true
  | _ => false

def isQuery : Error → Bool
  | .query _ => true
  | _ => false

end Error

/-! ## Attempts -/

abbrev Attempt (σ α : Type) := ExceptT Error (StateM σ) α

namespace Attempt

def outcome {σ α : Type} (a : Attempt σ α) (s : σ) : Except Error α × σ := a.run.run s

def within {σ τ α : Type} (get : τ → σ) (set : σ → τ → τ) (a : Attempt σ α) : Attempt τ α :=
  ExceptT.mk fun t =>
    let (result, s) := a.outcome (get t)
    (result, set s t)

end Attempt

end QueryLoom
