import QueryLoom.Dialect

/-!
# Configuration

What all chains of a database share. It is read from three environment variables, whose names
begin with the name of the application, or from JSON, where every field may be missing.
-/

set_option autoImplicit false

namespace QueryLoom

structure Config where
  tablePrefix : String := ""
  /-- Without one the connection's own dialect counts. -/
  dialect : Option Dialect := none
  cacheEnabled : Bool := false
  deriving DecidableEq, Repr, Inhabited

namespace Config

def prefixVariable (application : String) : String := application ++ "_TABLE_PREFIX"

def dialectVariable (application : String) : String := application ++ "_DIALECT"

def cacheVariable (application : String) : String := application ++ "_CACHE"

def isOn (s : String) : Bool :=
  ["1", "true", "on"].contains (Text.asciiLower (String.ofList (Text.trim s.toList)))

def ofEnvironment (application : String) (lookup : String → Option String) :
    Except Error Config := do
  let dialect ← match lookup (dialectVariable application) with
    | some s => (Dialect.parse s).map some
    | none => pure none
  return {
    tablePrefix := (lookup (prefixVariable application)).getD ""
    dialect
    cacheEnabled := ((lookup (cacheVariable application)).map isOn).getD false }

def fieldNames : List String := ["table_prefix", "dialect", "cache_enabled"]

def field? {α : Type} (missing : α) (read : Json.Raw → Option α) : Option Json.Raw → Option α
  | none => some missing
  | some r => read r

def ofRaw? (r : Json.Raw) : Option Config := do
  match ← Json.fields? fieldNames r with
  | [tablePrefix, dialect, cacheEnabled] =>
    return {
      tablePrefix := ← field? "" Json.Raw.string? tablePrefix
      dialect := ← field? none (Json.Raw.optional? Dialect.ofRaw?) dialect
      cacheEnabled := ← field? false Json.Raw.bool? cacheEnabled }
  | _ => none

def readJson? (s : String) : Option Config := (Json.readRaw? s).bind ofRaw?

def withTablePrefix (c : Config) (s : String) : Config := { c with tablePrefix := s }

def withDialect (c : Config) (d : Dialect) : Config := { c with dialect := some d }

def withCache (c : Config) : Config := { c with cacheEnabled := true }

def withoutCache (c : Config) : Config := { c with cacheEnabled := false }

end Config

end QueryLoom
