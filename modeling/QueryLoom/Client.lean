import QueryLoom.Bindings
import QueryLoom.Dialect
import QueryLoom.Error
import QueryLoom.Record
import QueryLoom.StatementKind
import QueryLoom.Table.Basic

/-!
# Clients

A client runs statements with named placeholders on some connection. The connection is a state, so
a client is a set of attempts on it: each call may change it and may fail.
-/

set_option autoImplicit false

namespace QueryLoom

structure Client (σ : Type) where
  /-- The dialect of the connection, for a configuration that names none. -/
  dialect : Dialect := .mySql
  fetch : String → Bindings → Attempt σ (List Record)
  execute : String → Bindings → Attempt σ Nat
  /-- The identifier that the latest insertion generated, if the client can tell. -/
  lastInsertId : Attempt σ (Option Value) := pure none
  describeTable : String → Attempt σ Table

inductive Executed where
  | rows (rs : List Record)
  | affected (n : Nat)
  deriving Repr

def Client.run {σ : Type} (client : Client σ) (sql : String) (b : Bindings) :
    Attempt σ Executed := do
  if (StatementKind.detect sql).returnsRows then return .rows (← client.fetch sql b)
  else return .affected (← client.execute sql b)

end QueryLoom
