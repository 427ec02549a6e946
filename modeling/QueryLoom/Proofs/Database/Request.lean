import QueryLoom.Proofs.AlterSession.Steps

/-!
# Requests to a database

A program asks a database for one thing after another: rows of a chain, writes, changes of tables,
and steps of sessions that it has begun before. Every request is answered, if only with an error,
and the program has nothing from the database but the replies.
-/

set_option autoImplicit false

namespace QueryLoom

inductive Request where
  | findAll (c : Chain)
  | find (c : Chain) (id : Value)
  | row (c : Chain)
  | query (c : Chain)
  | createTable (table : String) (columns : List (String × String))
  | dropTable (table : String)
  | truncateTable (table : String)
  | alter (table : String)
  | change (session : Nat) (verb : AlterVerb)
  deriving Repr

inductive Reply where
  | fetched (r : Except Error Fetched)
  | row (r : Except Error (Option Record))
  | written (r : Except Error Outcome)
  | changed (r : Except Error Nat)
  | began (r : Except Error AlterSession)
  | altered (r : Except Error Unit) (session : AlterSession)
  | noSession

structure Desk (σ : Type) where
  store : Store σ
  sessions : List AlterSession := []

variable {σ : Type}

def Chain.withStore {α : Type} (c : Chain) (a : Attempt (Run σ) α) : Attempt (Store σ) α :=
  a.within (fun store => ⟨c, store⟩) fun run _ => run.store

namespace Desk

def attempt {α : Type} (reply : Except Error α → Reply) (a : Attempt (Store σ) α) (d : Desk σ) :
    Reply × Desk σ :=
  let (result, store) := a.outcome d.store
  (reply result, { d with store })

def begin (a : Attempt (Store σ) AlterSession) (d : Desk σ) : Reply × Desk σ :=
  match a.outcome d.store with
  | (.ok session, store) => (.began (.ok session), ⟨store, d.sessions ++ [session]⟩)
  | (.error e, store) => (.began (.error e), { d with store })

def change (i : Nat) (a : Attempt (SessionRun σ) Unit) (d : Desk σ) : Reply × Desk σ :=
  match d.sessions[i]? with
  | none => (.noSession, d)
  | some session =>
    let (result, run) := a.outcome ⟨session, d.store⟩
    (.altered result run.session, ⟨run.store, d.sessions.set i run.session⟩)

end Desk

namespace Database

def serve (db : Database σ) : Request → Desk σ → Reply × Desk σ
  | .findAll c => Desk.attempt .fetched (c.withStore db.findAll)
  | .find c id => Desk.attempt .row (c.withStore (db.find id))
  | .row c => Desk.attempt .row (c.withStore db.row)
  | .query c => Desk.attempt .written (c.withStore db.query)
  | .createTable table columns => Desk.attempt .changed (db.createTable table columns)
  | .dropTable table => Desk.attempt .changed (db.dropTable table)
  | .truncateTable table => Desk.attempt .changed (db.truncateTable table)
  | .alter table => Desk.begin (db.alter table)
  | .change i verb => Desk.change i (verb.apply db)

def serveAll (db : Database σ) : List Request → Desk σ → List Reply × Desk σ
  | [], d => ([], d)
  | r :: rs, d =>
    let (reply, d) := db.serve r d
    let (replies, d) := db.serveAll rs d
    (reply :: replies, d)

def openDesk (db : Database σ) (connection : σ) : Desk σ := { store := db.openStore connection }

def replies (db : Database σ) (requests : List Request) (connection : σ) : List Reply :=
  (db.serveAll requests (db.openDesk connection)).1

def cached (db : Database σ) (enabled : Bool) : Database σ :=
  ⟨db.client, { db.config with cacheEnabled := enabled }⟩

/-! ## What is asked of the client -/

def oneRow (db : Database σ) (c : Chain) (id : Value) : Except Error Unit × Chain :=
  (do
    if !id.isNull then db.apply (.filter .and "id" "=" id)
    db.apply (.limit .single) : Attempt Chain Unit).outcome c

/-- The statements that the requests read with. -/
inductive Reads (db : Database σ) (requests : List Request) : Compiled → Prop
  | findAll {c : Chain} {q : Compiled} (h : .findAll c ∈ requests)
      (hq : c.compile db.dialect = .ok q) : Reads db requests q
  | find {c c' : Chain} {id : Value} {q : Compiled} (h : .find c id ∈ requests)
      (hc : db.oneRow c id = (.ok (), c')) (hq : c'.compile db.dialect = .ok q) :
      Reads db requests q
  | row {c c' : Chain} {q : Compiled} (h : .row c ∈ requests)
      (hc : db.oneRow c .null = (.ok (), c')) (hq : c'.compile db.dialect = .ok q) :
      Reads db requests q

/-- The statements that the requests write with, and the table that each of them names. -/
inductive Writes (db : Database σ) (requests : List Request) : String → String → Bindings → Prop
  | query {c : Chain} {q : Compiled} {table : String} (h : .query c ∈ requests)
      (hc : c.operation ≠ some .select) (hq : c.compile db.dialect = .ok q)
      (ht : c.table = some table) : Writes db requests table q.sql q.bindings
  | create {name table : String} {columns : List (String × String)} {texts : List String}
      (h : .createTable name columns ∈ requests) (ht : db.tableName name = .ok table)
      (hc : columns.mapM (fun c => columnText c.1 c.2) = .ok texts) :
      Writes db requests table ("CREATE TABLE " ++ table ++ " (" ++ ", ".intercalate texts ++ ")")
        .empty
  | drop {name table : String} (h : .dropTable name ∈ requests)
      (ht : db.tableName name = .ok table) :
      Writes db requests table ("DROP TABLE " ++ table) .empty
  | truncate {name table : String} (h : .truncateTable name ∈ requests)
      (ht : db.tableName name = .ok table) :
      Writes db requests table ("TRUNCATE TABLE " ++ table) .empty
  | change {name table sql : String} {i : Nat} {v : AlterVerb} {b : Bindings}
      (h : .alter name ∈ requests) (ht : db.tableName name = .ok table)
      (hv : .change i v ∈ requests) (hsends : v.Sends db table sql b) :
      Writes db requests table sql b

end Database

end QueryLoom
