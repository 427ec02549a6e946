import QueryLoom.AlterSession

/-!
# Steps of alter verbs

A verb first looks at its session only: it is refused, or comes to a plan, which is empty if there
is nothing to do. The steps of a plan are data, and what a verb can send to the server is read off
the plans that it can come to.
-/

set_option autoImplicit false

namespace QueryLoom

namespace AlterSession

inductive Step where
  | fill (column : String) (value : Value)
  | alter (a : Alteration)
  /-- Lets the active column count up, as the snapshot has it by then. -/
  | countUp
  | choose (column : String)
  | forget (column : String)
  | refuse (e : Error)

def counting (c : Column) : Column := { c with autoIncrement := true, nullable := false }

def keyDrop (d : Dialect) (s : AlterSession) : Alteration :=
  .dropPrimaryKeyFor d s.table s.snapshot.primaryKeyConstraint

variable {σ : Type}

def Step.run (db : Database σ) : Step → Attempt (SessionRun σ) Unit
  | .fill column value => do
    let table := (← session).table
    let _ ← onStore (db.executeOn table (backfillStatement table column)
      (Bindings.empty.insert "backfill" value))
  | .alter a => change db a
  | .countUp => do
    let c ← current
    change db (.setAutoIncrementFor db.dialect (counting c))
  | .choose column => setActive (some column)
  | .forget column => do if (← session).active = some column then setActive none
  | .refuse e => throw e

inductive Step.Sends (d : Dialect) (table : String) : Step → String → Bindings → Prop
  | fill {column : String} {value : Value} :
    Sends d table (.fill column value) (backfillStatement table column)
      (Bindings.empty.insert "backfill" value)
  | alter {a : Alteration} : Sends d table (.alter a) (a.statement table) .empty
  -- The snapshot may have changed by then, so this can be any column.
  | countUp (c : Column) :
    Sends d table .countUp ((Alteration.setAutoIncrementFor d (counting c)).statement table) .empty

def perform (db : Database σ) : List Step → Attempt (SessionRun σ) Unit
  | [] => return
  | step :: steps => do
    step.run db
    perform db steps

end AlterSession

namespace AlterVerb

open AlterSession

def isConstraint : AlterVerb → Bool
  | .addColumn .. | .dropColumn .. | .modifyColumn .. | .addForeignKey .. | .dropForeignKey .. =>
    false
  | _ => true

def isMet (c : Column) : AlterVerb → Bool
  | .addPrimaryKey => c.primaryKey
  | .dropPrimaryKey => !c.primaryKey
  | .addNotNull _ => !c.nullable
  | .dropNotNull => c.nullable
  | .addUnsigned => c.unsigned
  | .dropUnsigned => !c.unsigned
  | .addAutoIncrement => c.autoIncrement
  | .dropAutoIncrement => !c.autoIncrement
  | .setDefault value => c.defaultExpr.any fun reported => DefaultExpr.same reported value.literal
  | .dropDefault => c.defaultExpr.isNone
  | .addUnique => c.unique || c.primaryKey
  | .dropUnique => !c.unique
  | _ => false

def steps (d : Dialect) (s : AlterSession) (c : Column) : AlterVerb → List Step
  | .addPrimaryKey => [.alter (.addPrimaryKey c.name)]
  | .dropPrimaryKey => [.alter (keyDrop d s)]
  | .addNotNull backfill =>
    (backfill.map (Step.fill c.name)).toList ++
      [.alter (.setNullableFor d { c with nullable := false })]
  | .dropNotNull => [.alter (.setNullableFor d { c with nullable := true })]
  | .addUnsigned => [.alter (.setUnsignedFor d s.table { c with unsigned := true })]
  | .dropUnsigned => [.alter (.setUnsignedFor d s.table { c with unsigned := false })]
  | .addAutoIncrement =>
    if c.primaryKey then [.countUp]
    else if s.snapshot.primaryKey?.isSome then
      [.alter (keyDrop d s), .alter (.addPrimaryKey c.name), .countUp]
    else [.alter (.addPrimaryKey c.name), .countUp]
  | .dropAutoIncrement => [.alter (.setAutoIncrementFor d { c with autoIncrement := false })]
  | .setDefault value => [.alter (.setDefault c.name value.literal)]
  | .dropDefault => [.alter (.dropDefault c.name)]
  | .addUnique => [.alter (.addUniqueFor s.table c.name)]
  | .dropUnique => [.alter (.dropUniqueFor d s.table c.name)]
  | _ => []

end AlterVerb

namespace AlterSession

variable {σ : Type}

def foreignKeyName (s : AlterSession) (c : Column) (refTable refColumn : String) : String :=
  Alteration.foreignKeyName s.table c.name refTable refColumn

def nameOr (name : Option String) (other : String) : Except Error String :=
  match name with
  | some name => Identifier.column name
  | none => .ok other

def plan (db : Database σ) (s : AlterSession) : AlterVerb → Except Error (List Step)
  | .addColumn name spec =>
    (Identifier.column name).bind fun name =>
      (Identifier.rawFragment "column spec" spec).bind fun spec =>
        if (s.snapshot.column? name).isSome then .error (.usage (.columnExists name s.table))
        else .ok [.alter (.addColumnFor db.dialect name spec)]
  | .dropColumn name =>
    (s.existing name).map fun name => [.alter (.dropColumn name), .forget name]
  | .modifyColumn name none => (s.existing name).map fun name => [.choose name]
  | .modifyColumn name (some spec) =>
    (s.existing name).map fun name =>
      match Identifier.rawFragment "column spec" spec with
      | .ok spec => [.choose name, .alter (.changeTypeFor db.dialect name spec)]
      | .error e => [.choose name, .refuse e]
  | .addForeignKey refTable refColumn name =>
    (db.tableName refTable).bind fun refTable =>
      (Identifier.column refColumn).bind fun refColumn =>
        s.activeColumn.bind fun c =>
          if (refersTo c refTable refColumn).isSome then .ok []
          else (nameOr name (s.foreignKeyName c refTable refColumn)).map fun constraint =>
            [.alter (.addForeignKey constraint c.name refTable refColumn)]
  | .dropForeignKey refTable refColumn name =>
    (db.tableName refTable).bind fun refTable =>
      (Identifier.column refColumn).bind fun refColumn =>
        s.activeColumn.bind fun c =>
          match refersTo c refTable refColumn with
          | none => .ok []
          | some key =>
            (nameOr name (if key.constraint.isEmpty then s.foreignKeyName c refTable refColumn
              else key.constraint)).map fun constraint =>
                [.alter (.dropForeignKeyFor db.dialect constraint)]
  | v => s.activeColumn.map fun c => if v.isMet c then [] else v.steps db.dialect s c

end AlterSession

/-- What a verb can send in a session on a table, whatever the session knows of the table. -/
def AlterVerb.Sends {σ : Type} (db : Database σ) (v : AlterVerb) (table sql : String)
    (b : Bindings) : Prop :=
  ∃ s steps, s.table = table ∧ AlterSession.plan db s v = .ok steps ∧
    ∃ step ∈ steps, step.Sends db.dialect table sql b

namespace AlterSession

/-- A plan depends on the dialect and the prefix of tables alone. -/
theorem plan_congr {σ τ : Type} {db : Database σ} {db' : Database τ}
    (hdialect : db'.dialect = db.dialect) (htable : db'.tableName = db.tableName)
    (s : AlterSession) (v : AlterVerb) : plan db' s v = plan db s v := by
  cases v <;> simp only [plan, hdialect, htable]

end AlterSession

end QueryLoom
