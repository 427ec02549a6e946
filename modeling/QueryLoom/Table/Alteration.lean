import QueryLoom.Dialect
import QueryLoom.Digest.Blake3
import QueryLoom.Table.Basic
import QueryLoom.Text.Utf8

/-!
# Alterations

The changes that one ALTER TABLE statement can make, and their texts. Which change serves a
purpose depends on the dialect: where MySQL changes a property of a column by a complete new
definition, Postgres has a statement for each property, or a constraint by name.
-/

set_option autoImplicit false

namespace QueryLoom

def Column.definition (c : Column) : String :=
  c.dataType ++ (if c.unsigned then " UNSIGNED" else "") ++
    (if c.nullable then " NULL" else " NOT NULL") ++
    (match c.defaultExpr with
      | some expr => " DEFAULT " ++ expr
      | none => "") ++
    if c.autoIncrement then " AUTO_INCREMENT" else ""

inductive Alteration where
  | add (column spec : String)
  | addColumn (column spec : String)
  | dropColumn (column : String)
  | modify (column spec : String)
  | changeType (column spec : String)
  | define (column : Column)
  | addPrimaryKey (column : String)
  | dropPrimaryKey
  | dropConstraint (name : String)
  | setNotNull (column : String)
  | dropNotNull (column : String)
  | addNonNegative (name column : String)
  | addIdentity (column : String)
  | dropIdentity (column : String)
  | setDefault (column literal : String)
  | dropDefault (column : String)
  | addUnique (name column : String)
  | dropIndex (name : String)
  | addForeignKey (name column refTable refColumn : String)
  | dropForeignKey (name : String)
  deriving DecidableEq, Repr

namespace Alteration

def clause : Alteration → String
  | .add column spec => "ADD " ++ column ++ " " ++ spec
  | .addColumn column spec => "ADD COLUMN " ++ column ++ " " ++ spec
  | .dropColumn column => "DROP COLUMN " ++ column
  | .modify column spec => "MODIFY COLUMN " ++ column ++ " " ++ spec
  | .changeType column spec => "ALTER COLUMN " ++ column ++ " TYPE " ++ spec
  | .define column => "MODIFY COLUMN " ++ column.name ++ " " ++ column.definition
  | .addPrimaryKey column => "ADD PRIMARY KEY (" ++ column ++ ")"
  | .dropPrimaryKey => "DROP PRIMARY KEY"
  | .dropConstraint name => "DROP CONSTRAINT " ++ name
  | .setNotNull column => "ALTER COLUMN " ++ column ++ " SET NOT NULL"
  | .dropNotNull column => "ALTER COLUMN " ++ column ++ " DROP NOT NULL"
  | .addNonNegative name column => "ADD CONSTRAINT " ++ name ++ " CHECK (" ++ column ++ " >= 0)"
  | .addIdentity column => "ALTER COLUMN " ++ column ++ " ADD GENERATED BY DEFAULT AS IDENTITY"
  | .dropIdentity column => "ALTER COLUMN " ++ column ++ " DROP IDENTITY"
  | .setDefault column literal => "ALTER COLUMN " ++ column ++ " SET DEFAULT " ++ literal
  | .dropDefault column => "ALTER COLUMN " ++ column ++ " DROP DEFAULT"
  | .addUnique name column => "ADD CONSTRAINT " ++ name ++ " UNIQUE (" ++ column ++ ")"
  | .dropIndex name => "DROP INDEX " ++ name
  | .addForeignKey name column refTable refColumn =>
    "ADD CONSTRAINT " ++ name ++ " FOREIGN KEY (" ++ column ++ ") REFERENCES " ++ refTable ++
      " (" ++ refColumn ++ ")"
  | .dropForeignKey name => "DROP FOREIGN KEY " ++ name

def statement (table : String) (a : Alteration) : String :=
  "ALTER TABLE " ++ table ++ " " ++ a.clause

/-! ## Names of constraints -/

def uniqueName (table column : String) : String := table ++ "_" ++ column ++ "_key"

def unsignedName (table column : String) : String := table ++ "_" ++ column ++ "_unsigned"

def referenceText (table column refTable refColumn : String) : String :=
  table ++ "." ++ column ++ ">" ++ refTable ++ "." ++ refColumn

def foreignKeyName (table column refTable refColumn : String) : String :=
  let reference := referenceText table column refTable refColumn
  let digest := Blake3.hexDigest (Text.Utf8.encode reference.toList)
  "fk_" ++ String.ofList (table.toList.take 40) ++ "_" ++ String.ofList (digest.toList.take 10)

/-! ## Changes for a purpose -/

def addColumnFor (d : Dialect) (column spec : String) : Alteration :=
  match d with
  | .mySql => .add column spec
  | .postgres => .addColumn column spec

def changeTypeFor (d : Dialect) (column spec : String) : Alteration :=
  match d with
  | .mySql => .modify column spec
  | .postgres => .changeType column spec

def dropPrimaryKeyFor (d : Dialect) (table : String) (constraint : Option String) : Alteration :=
  match d with
  | .mySql => .dropPrimaryKey
  | .postgres => .dropConstraint (constraint.getD (table ++ "_pkey"))

def setNullableFor (d : Dialect) (target : Column) : Alteration :=
  match d with
  | .mySql => .define target
  | .postgres => if target.nullable then .dropNotNull target.name else .setNotNull target.name

def setUnsignedFor (d : Dialect) (table : String) (target : Column) : Alteration :=
  match d with
  | .mySql => .define target
  | .postgres =>
    if target.unsigned then .addNonNegative (unsignedName table target.name) target.name
    else .dropConstraint (unsignedName table target.name)

def setAutoIncrementFor (d : Dialect) (target : Column) : Alteration :=
  match d with
  | .mySql => .define target
  | .postgres =>
    if target.autoIncrement then .addIdentity target.name else .dropIdentity target.name

def addUniqueFor (table column : String) : Alteration := .addUnique (uniqueName table column) column

def dropUniqueFor (d : Dialect) (table column : String) : Alteration :=
  match d with
  | .mySql => .dropIndex (uniqueName table column)
  | .postgres => .dropConstraint (uniqueName table column)

def dropForeignKeyFor (d : Dialect) (constraint : String) : Alteration :=
  match d with
  | .mySql => .dropForeignKey constraint
  | .postgres => .dropConstraint constraint

end Alteration

end QueryLoom
