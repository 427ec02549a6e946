import QueryLoom.Postgres.Server

/-!
# A server that follows a script

It takes its answers from a queue, one for each statement that it prepares, and logs the
statements with the values that it got for them.
-/

set_option autoImplicit false

namespace QueryLoom.Postgres

structure ScriptedReply where
  prepared : Prepared := {}
  reply : Reply := {}
  prepareError : Option String := none
  executeError : Option String := none
  deriving Repr

structure Sent where
  sql : String
  cells : Option (List Wire.Cell)
  deriving Repr

structure ServerScript where
  replies : List ScriptedReply := []
  current : ScriptedReply := {}
  log : List Sent := []
  deriving Repr

namespace ServerScript

def failing (code : Option String) : Attempt ServerScript Unit :=
  match code with
  | some code => throw (.query (some code))
  | none => return

def prepare (sql : String) : Attempt ServerScript Prepared := do
  let s ← get
  let current := s.replies.headD {}
  set { s with replies := s.replies.tail, current, log := ⟨sql, none⟩ :: s.log }
  failing current.prepareError
  return current.prepared

def addCells (cells : List Wire.Cell) : List Sent → List Sent
  | [] => []
  | sent :: earlier => { sent with cells := some cells } :: earlier

def run (cells : List Wire.Cell) : Attempt ServerScript Reply := do
  modify fun s => { s with log := addCells cells s.log }
  let current := (← get).current
  failing current.executeError
  return current.reply

def server : Server ServerScript := ⟨prepare, run⟩

end ServerScript

end QueryLoom.Postgres
