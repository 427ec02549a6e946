import QueryLoom.Cache
import QueryLoom.Chain.Compile
import QueryLoom.Chain.Verb
import QueryLoom.Client
import QueryLoom.Config

/-!
# Databases

A database is a client with a configuration. What it works on is the connection and, if the
configuration asks for one, a cache of results. Every write that took effect drops what the cache
has of its table. The verbs that run a chain leave a fresh chain behind.
-/

set_option autoImplicit false

namespace QueryLoom

structure Database (σ : Type) where
  client : Client σ
  config : Config

structure Store (σ : Type) where
  connection : σ
  cache : Option Cache

structure Run (σ : Type) where
  chain : Chain
  store : Store σ

inductive Fetched where
  | many (rows : List Record)
  | one (row : Option Record)
  deriving Repr

namespace Fetched

def rows : Fetched → List Record
  | .many rs => rs
  | .one row => row.toList

def size (f : Fetched) : Nat := f.rows.length

def isEmpty (f : Fetched) : Bool := f.size == 0

def first? (f : Fetched) : Option Record := f.rows.head?

end Fetched

inductive Outcome where
  | inserted (affected : Nat) (lastInsertId : Option Value)
  | affected (n : Nat)
  deriving Repr

namespace Outcome

def count : Outcome → Nat
  | .inserted n _ => n
  | .affected n => n

def lastInsertId? : Outcome → Option Value
  | .inserted _ id => id
  | .affected _ => none

end Outcome

namespace Database

variable {σ : Type}

def dialect (db : Database σ) : Dialect := db.config.dialect.getD db.client.dialect

def tableName (db : Database σ) (name : String) : Except Error String :=
  Identifier.table db.config.tablePrefix name

def openStore (db : Database σ) (connection : σ) : Store σ :=
  ⟨connection, if db.config.cacheEnabled then some .empty else none⟩

/-! ## Statements -/

def onConnection {α : Type} (a : Attempt σ α) : Attempt (Store σ) α :=
  a.within Store.connection fun s store => { store with connection := s }

def invalidate (table : String) : Attempt (Store σ) Unit :=
  modify fun s => { s with cache := s.cache.map fun c => (c.clear table).2 }

def executeOn (db : Database σ) (table sql : String) (b : Bindings) : Attempt (Store σ) Nat := do
  let affected ← onConnection (db.client.execute sql b)
  invalidate table
  return affected

def fetchCompiled (db : Database σ) (q : Compiled) : Attempt (Store σ) (List Record) := do
  match ((← get).cache.bind fun c => c.get? q.sql q.bindings) with
  | some rows => return rows
  | none =>
    let rows ← onConnection (db.client.fetch q.sql q.bindings)
    modify fun s =>
      { s with cache := s.cache.map fun c => (c.put q.sql q.bindings q.tables rows).2 }
    return rows

/-- Where the dialect gives the new rows back, they are counted and the first one has the
identifier. -/
def runInsert (db : Database σ) (q : Compiled) : Attempt (Store σ) Outcome := do
  match db.dialect with
  | .postgres =>
    let rows ← onConnection (db.client.fetch q.sql q.bindings)
    return .inserted rows.length (rows.head?.bind fun r => r.get? "id")
  | .mySql =>
    let affected ← onConnection (db.client.execute q.sql q.bindings)
    return .inserted affected (← onConnection db.client.lastInsertId)

def runWrite (db : Database σ) (q : Compiled) : Attempt (Store σ) Outcome := do
  match q.operation with
  | .insert => db.runInsert q
  | _ => return .affected (← onConnection (db.client.execute q.sql q.bindings))

def runSelect (db : Database σ) (c : Chain) : Attempt (Store σ) Fetched := do
  let q ← ofExcept (c.compile db.dialect)
  let rows ← db.fetchCompiled q
  if c.limit = some .single then return .one rows.head? else return .many rows

def runMutation (db : Database σ) (c : Chain) : Attempt (Store σ) Outcome := do
  if c.operation.isNone || c.operation = some .select then throw (.usage .notMutation)
  let q ← ofExcept (c.compile db.dialect)
  let outcome ← db.runWrite q
  q.tables.head?.forM invalidate
  return outcome

/-! ## Chains -/

def start (db : Database σ) (operation : Operation) (table : String) : Except Error Chain :=
  (db.tableName table).map (Chain.start operation)

def startSelect (db : Database σ) (columns table : String) : Except Error Chain := do
  let c ← db.start .select table
  let (result, c) := ((Verb.select columns).apply db.config.tablePrefix).outcome c
  result.map fun _ => c

def apply (db : Database σ) (verb : Verb) : Attempt Chain Unit := verb.apply db.config.tablePrefix

def onChain {α : Type} (a : Attempt Chain α) : Attempt (Run σ) α :=
  a.within Run.chain fun c run => { run with chain := c }

def onStore {α : Type} (a : Attempt (Store σ) α) : Attempt (Run σ) α :=
  a.within Run.store fun s run => { run with store := s }

def takeChain : Attempt (Run σ) Chain :=
  modifyGet fun run => (run.chain, { run with chain := .fresh })

def findAll (db : Database σ) : Attempt (Run σ) Fetched := do
  let c ← takeChain
  onStore (db.runSelect c)

/-- One row, with the given identifier unless that is NULL. -/
def find (db : Database σ) (id : Value) : Attempt (Run σ) (Option Record) := do
  if !id.isNull then onChain (db.apply (.filter .and "id" "=" id))
  onChain (db.apply (.limit .single))
  return (← db.findAll).first?

def row (db : Database σ) : Attempt (Run σ) (Option Record) := db.find .null

def query (db : Database σ) : Attempt (Run σ) Outcome := do
  let c ← takeChain
  onStore (db.runMutation c)

/-! ## Tables -/

def columnText (name spec : String) : Except Error String := do
  let name ← Identifier.column name
  let spec ← Identifier.rawFragment "column spec" spec
  return name ++ " " ++ spec

def createTable (db : Database σ) (table : String) (columns : List (String × String)) :
    Attempt (Store σ) Nat := do
  if columns.isEmpty then throw (.usage .noColumns)
  let table ← ofExcept (db.tableName table)
  let texts ← ofExcept (columns.mapM fun c => columnText c.1 c.2)
  db.executeOn table ("CREATE TABLE " ++ table ++ " (" ++ ", ".intercalate texts ++ ")") .empty

def dropTable (db : Database σ) (table : String) : Attempt (Store σ) Nat := do
  let table ← ofExcept (db.tableName table)
  db.executeOn table ("DROP TABLE " ++ table) .empty

def truncateTable (db : Database σ) (table : String) : Attempt (Store σ) Nat := do
  let table ← ofExcept (db.tableName table)
  db.executeOn table ("TRUNCATE TABLE " ++ table) .empty

def describeTable (db : Database σ) (table : String) : Attempt (Store σ) Table := do
  let table ← ofExcept (db.tableName table)
  onConnection (db.client.describeTable table)

def lastInsertId (db : Database σ) : Attempt (Store σ) (Option Value) :=
  onConnection db.client.lastInsertId

def run (db : Database σ) (sql : String) (b : Bindings) : Attempt (Store σ) Executed :=
  onConnection (db.client.run sql b)

def clearCache : Attempt (Store σ) Unit :=
  modify fun s => { s with cache := s.cache.map fun _ => .empty }

end Database

end QueryLoom
