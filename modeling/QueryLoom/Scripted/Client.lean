import QueryLoom.Client

/-!
# A client that follows a script

It answers from queues that are filled beforehand and keeps a log of its calls, so that what runs
on it can be observed. Chosen calls fail; these are logged and take nothing from a queue.
-/

set_option autoImplicit false

namespace QueryLoom

inductive Call where
  | fetch (sql : String) (b : Bindings)
  | execute (sql : String) (b : Bindings)
  | describe (table : String)
  deriving Repr

structure Script where
  dialect : Dialect := .mySql
  rows : List (List Record) := []
  affected : Nat := 1
  lastId : Option Value := none
  /-- Descriptions to come; the last one stays. -/
  snapshots : List (Option Table) := []
  /-- Numbers of the fetches and executions that fail, from zero. -/
  failing : List Nat := []
  count : Nat := 0
  log : List Call := []
  deriving Repr

namespace Script

def enter (call : Call) : Attempt Script Unit := do
  let s ← get
  set { s with count := s.count + 1, log := s.log ++ [call] }
  if s.failing.contains s.count then
    throw (.connection ("call " ++ Text.natural s.count ++ " failed"))

def fetch (sql : String) (b : Bindings) : Attempt Script (List Record) := do
  enter (.fetch sql b)
  let s ← get
  set { s with rows := s.rows.tail }
  return s.rows.headD []

def execute (sql : String) (b : Bindings) : Attempt Script Nat := do
  enter (.execute sql b)
  return (← get).affected

def describe (table : String) : Attempt Script Table := do
  let s ← get
  let left := if 1 < s.snapshots.length then s.snapshots.tail else s.snapshots
  set { s with snapshots := left, log := s.log ++ [Call.describe table] }
  match s.snapshots.head?.join with
  | some t => return t
  | none => throw (.usage (.tableMissing table))

def client (dialect : Dialect) : Client Script where
  dialect := dialect
  fetch := fetch
  execute := execute
  lastInsertId := return (← get).lastId
  describeTable := describe

def bareClient : Client Script where
  fetch := fetch
  execute := execute
  describeTable := describe

end Script

end QueryLoom
