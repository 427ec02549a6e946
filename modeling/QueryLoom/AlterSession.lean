import QueryLoom.Database
import QueryLoom.Table.Alteration
import QueryLoom.Table.DefaultExpr

/-!
# Alter sessions

A session changes one table step by step. It holds a snapshot of the table, taken when it begins
and again after every change, and a column chosen as the active one. A verb that asks for what the
snapshot shows already runs nothing.
-/

set_option autoImplicit false

namespace QueryLoom

structure AlterSession where
  table : String
  snapshot : Table
  active : Option String := none
  deriving DecidableEq, Repr

structure SessionRun (σ : Type) where
  session : AlterSession
  store : Store σ

inductive AlterVerb where
  | addColumn (name spec : String)
  | dropColumn (name : String)
  | modifyColumn (name : String) (spec : Option String)
  | addPrimaryKey
  | dropPrimaryKey
  | addNotNull (backfill : Option Value)
  | dropNotNull
  | addUnsigned
  | dropUnsigned
  | addAutoIncrement
  | dropAutoIncrement
  | setDefault (value : Value)
  | dropDefault
  | addUnique
  | dropUnique
  | addForeignKey (refTable refColumn : String) (name : Option String)
  | dropForeignKey (refTable refColumn : String) (name : Option String)
  deriving Repr

namespace AlterSession

variable {σ : Type}

def existing (s : AlterSession) (name : String) : Except Error String := do
  let name ← Identifier.column name
  match s.snapshot.column? name with
  | some _ => return name
  | none => throw (.usage (.columnMissing name s.table))

def activeColumn (s : AlterSession) : Except Error Column :=
  match s.active with
  | none => .error (.usage .noActiveColumn)
  | some name =>
    match s.snapshot.column? name with
    | some c => .ok c
    | none => .error (.usage (.activeColumnGone name s.table))

def begin (db : Database σ) (table : String) : Attempt (Store σ) AlterSession := do
  let snapshot ← Database.onConnection (db.client.describeTable table)
  return { table, snapshot }

def onStore {α : Type} (a : Attempt (Store σ) α) : Attempt (SessionRun σ) α :=
  a.within SessionRun.store fun s run => { run with store := s }

def session : Attempt (SessionRun σ) AlterSession := return (← get).session

def setActive (name : Option String) : Attempt (SessionRun σ) Unit :=
  modify fun run => { run with session := { run.session with active := name } }

def current : Attempt (SessionRun σ) Column := do ofExcept (← session).activeColumn

def change (db : Database σ) (a : Alteration) : Attempt (SessionRun σ) Unit := do
  let table := (← session).table
  let _ ← onStore (db.executeOn table (a.statement table) .empty)
  let snapshot ← onStore (Database.onConnection (db.client.describeTable table))
  modify fun run => { run with session := { run.session with snapshot } }

def addColumn (db : Database σ) (name spec : String) : Attempt (SessionRun σ) Unit := do
  let name ← ofExcept (Identifier.column name)
  let spec ← ofExcept (Identifier.rawFragment "column spec" spec)
  let s ← session
  if (s.snapshot.column? name).isSome then throw (.usage (.columnExists name s.table))
  change db (.addColumnFor db.dialect name spec)

def dropColumn (db : Database σ) (name : String) : Attempt (SessionRun σ) Unit := do
  let name ← ofExcept ((← session).existing name)
  change db (.dropColumn name)
  if (← session).active = some name then setActive none

def modifyColumn (db : Database σ) (name : String) (spec : Option String) :
    Attempt (SessionRun σ) Unit := do
  let name ← ofExcept ((← session).existing name)
  setActive (some name)
  match spec with
  | none => return
  | some spec =>
    let spec ← ofExcept (Identifier.rawFragment "column spec" spec)
    change db (.changeTypeFor db.dialect name spec)

def addPrimaryKey (db : Database σ) : Attempt (SessionRun σ) Unit := do
  let c ← current
  if !c.primaryKey then change db (.addPrimaryKey c.name)

def demote (db : Database σ) : Attempt (SessionRun σ) Unit := do
  let s ← session
  change db (.dropPrimaryKeyFor db.dialect s.table s.snapshot.primaryKeyConstraint)

def dropPrimaryKey (db : Database σ) : Attempt (SessionRun σ) Unit := do
  let c ← current
  if c.primaryKey then demote db

def backfillStatement (table column : String) : String :=
  "UPDATE " ++ table ++ " SET " ++ column ++ " = :backfill WHERE " ++ column ++ " IS NULL"

def addNotNull (db : Database σ) (backfill : Option Value) : Attempt (SessionRun σ) Unit := do
  let c ← current
  if c.nullable then
    match backfill with
    | none => pure ()
    | some value =>
      let table := (← session).table
      let _ ← onStore (db.executeOn table (backfillStatement table c.name)
        (Bindings.empty.insert "backfill" value))
    change db (.setNullableFor db.dialect { c with nullable := false })

def dropNotNull (db : Database σ) : Attempt (SessionRun σ) Unit := do
  let c ← current
  if !c.nullable then change db (.setNullableFor db.dialect { c with nullable := true })

def setUnsigned (db : Database σ) (unsigned : Bool) : Attempt (SessionRun σ) Unit := do
  let c ← current
  if c.unsigned ≠ unsigned then
    change db (.setUnsignedFor db.dialect (← session).table { c with unsigned })

/-- Only a primary key can count up by itself, so the column becomes the key first; another key
gives way. -/
def addAutoIncrement (db : Database σ) : Attempt (SessionRun σ) Unit := do
  let c ← current
  if !c.autoIncrement then
    if !c.primaryKey then
      if (← session).snapshot.primaryKey?.isSome then demote db
      change db (.addPrimaryKey c.name)
    let c ← current
    change db (.setAutoIncrementFor db.dialect { c with autoIncrement := true, nullable := false })

def dropAutoIncrement (db : Database σ) : Attempt (SessionRun σ) Unit := do
  let c ← current
  if c.autoIncrement then
    change db (.setAutoIncrementFor db.dialect { c with autoIncrement := false })

def setDefault (db : Database σ) (value : Value) : Attempt (SessionRun σ) Unit := do
  let c ← current
  if !c.defaultExpr.any fun reported => DefaultExpr.same reported value.literal then
    change db (.setDefault c.name value.literal)

def dropDefault (db : Database σ) : Attempt (SessionRun σ) Unit := do
  let c ← current
  if c.defaultExpr.isSome then change db (.dropDefault c.name)

/-- A primary key is unique as it is. -/
def addUnique (db : Database σ) : Attempt (SessionRun σ) Unit := do
  let c ← current
  if !c.unique && !c.primaryKey then
    change db (.addUniqueFor (← session).table c.name)

def dropUnique (db : Database σ) : Attempt (SessionRun σ) Unit := do
  let c ← current
  if c.unique then change db (.dropUniqueFor db.dialect (← session).table c.name)

def refersTo (c : Column) (refTable refColumn : String) : Option ForeignKey :=
  c.foreignKey.filter fun k => k.table == refTable && k.column == refColumn

def addForeignKey (db : Database σ) (refTable refColumn : String) (name : Option String) :
    Attempt (SessionRun σ) Unit := do
  let refTable ← ofExcept (db.tableName refTable)
  let refColumn ← ofExcept (Identifier.column refColumn)
  let c ← current
  if (refersTo c refTable refColumn).isNone then
    let table := (← session).table
    let constraint ← match name with
      | some name => ofExcept (Identifier.column name)
      | none => pure (Alteration.foreignKeyName table c.name refTable refColumn)
    change db (.addForeignKey constraint c.name refTable refColumn)

def dropForeignKey (db : Database σ) (refTable refColumn : String) (name : Option String) :
    Attempt (SessionRun σ) Unit := do
  let refTable ← ofExcept (db.tableName refTable)
  let refColumn ← ofExcept (Identifier.column refColumn)
  let c ← current
  match refersTo c refTable refColumn with
  | none => return
  | some key =>
    let constraint ← match name with
      | some name => ofExcept (Identifier.column name)
      | none =>
        if key.constraint.isEmpty then
          pure (Alteration.foreignKeyName (← session).table c.name refTable refColumn)
        else pure key.constraint
    change db (.dropForeignKeyFor db.dialect constraint)

end AlterSession

def AlterVerb.apply {σ : Type} (db : Database σ) : AlterVerb → Attempt (SessionRun σ) Unit
  | .addColumn name spec => AlterSession.addColumn db name spec
  | .dropColumn name => AlterSession.dropColumn db name
  | .modifyColumn name spec => AlterSession.modifyColumn db name spec
  | .addPrimaryKey => AlterSession.addPrimaryKey db
  | .dropPrimaryKey => AlterSession.dropPrimaryKey db
  | .addNotNull backfill => AlterSession.addNotNull db backfill
  | .dropNotNull => AlterSession.dropNotNull db
  | .addUnsigned => AlterSession.setUnsigned db true
  | .dropUnsigned => AlterSession.setUnsigned db false
  | .addAutoIncrement => AlterSession.addAutoIncrement db
  | .dropAutoIncrement => AlterSession.dropAutoIncrement db
  | .setDefault value => AlterSession.setDefault db value
  | .dropDefault => AlterSession.dropDefault db
  | .addUnique => AlterSession.addUnique db
  | .dropUnique => AlterSession.dropUnique db
  | .addForeignKey refTable refColumn name => AlterSession.addForeignKey db refTable refColumn name
  | .dropForeignKey refTable refColumn name =>
    AlterSession.dropForeignKey db refTable refColumn name

namespace Database

def alter {σ : Type} (db : Database σ) (table : String) : Attempt (Store σ) AlterSession := do
  let table ← ofExcept (db.tableName table)
  AlterSession.begin db table

end Database

end QueryLoom
