import QueryLoom.Table.Basic

/-!
# Table descriptions as JSON

Objects with one member a field. A reader also takes the fields in order as an array; in an object
the fields that may be null may be missing.
-/

set_option autoImplicit false

namespace QueryLoom
open Json

def Json.ofText? : Option String → Json
  | none => .null
  | some s => .string s

def Json.required? {α : Type} (read : Raw → Option α) (field : Option Raw) : Option α :=
  field.bind read

/-- A field that may be null, and that may be missing unless fields are given by place. -/
def Json.nullable? {α : Type} (positional : Bool) (read : Raw → Option α) :
    Option Raw → Option (Option α)
  | none => if positional then none else some none
  | some r => r.optional? read

def Raw.items? {α : Type} (read : Raw → Option α) : Raw → Option (List α)
  | .array items => items.mapM read
  | _ => none

namespace ForeignKey

def toJson (k : ForeignKey) : Json :=
  .object [("constraint", .string k.constraint), ("table", .string k.table),
    ("column", .string k.column)]

def ofRaw? (r : Raw) : Option ForeignKey := do
  match ← fields? ["constraint", "table", "column"] r with
  | [constraint, table, column] =>
    return {
      constraint := ← required? Raw.string? constraint
      table := ← required? Raw.string? table
      column := ← required? Raw.string? column }
  | _ => none

end ForeignKey

namespace Column

def fieldNames : List String :=
  ["name", "data_type", "nullable", "default", "primary_key", "unique", "auto_increment",
    "unsigned", "foreign_key"]

def toJson (c : Column) : Json :=
  .object [("name", .string c.name), ("data_type", .string c.dataType),
    ("nullable", .bool c.nullable), ("default", Json.ofText? c.defaultExpr),
    ("primary_key", .bool c.primaryKey), ("unique", .bool c.unique),
    ("auto_increment", .bool c.autoIncrement), ("unsigned", .bool c.unsigned),
    ("foreign_key", match c.foreignKey with
      | none => .null
      | some k => k.toJson)]

def ofRaw? (r : Raw) : Option Column := do
  match ← fields? fieldNames r with
  | [name, dataType, nullable, default, primaryKey, unique, autoIncrement, unsigned, foreignKey] =>
    return {
      name := ← required? Raw.string? name
      dataType := ← required? Raw.string? dataType
      nullable := ← required? Raw.bool? nullable
      defaultExpr := ← nullable? r.isPositional Raw.string? default
      primaryKey := ← required? Raw.bool? primaryKey
      unique := ← required? Raw.bool? unique
      autoIncrement := ← required? Raw.bool? autoIncrement
      unsigned := ← required? Raw.bool? unsigned
      foreignKey := ← nullable? r.isPositional ForeignKey.ofRaw? foreignKey }
  | _ => none

end Column

namespace Table

def toJson (t : Table) : Json :=
  .object [("table", .string t.name), ("columns", .array (t.columns.map Column.toJson)),
    ("primary_key_constraint", Json.ofText? t.primaryKeyConstraint)]

def ofRaw? (r : Raw) : Option Table := do
  match ← fields? ["table", "columns", "primary_key_constraint"] r with
  | [table, columns, constraint] =>
    return {
      name := ← required? Raw.string? table
      columns := ← required? (Raw.items? Column.ofRaw?) columns
      primaryKeyConstraint := ← nullable? r.isPositional Raw.string? constraint }
  | _ => none

def readJson? (s : String) : Option Table := (readRaw? s).bind ofRaw?

end Table

end QueryLoom
