import QueryLoom.Client
import QueryLoom.Placeholder
import QueryLoom.Postgres.Server
import QueryLoom.Wire.Encode

/-!
# Clients of a server

A client numbers the placeholders of a statement, sends it with the values in binary form, and
reads the rows of the answer column by column.
-/

set_option autoImplicit false

namespace QueryLoom.Postgres

def bindValues? : List Value → List WireType → Option (List Wire.Cell)
  | [], [] => some []
  | v :: vs, t :: ts => do
    let cell ← (v.encode t).toOption
    let cells ← bindValues? vs ts
    return cell :: cells
  | _, _ => none

def readCell (column : String × WireType) (cell : Wire.Cell) : Except Error (String × Value) :=
  match Wire.decodeCell? column.2 cell with
  | some v => .ok (column.1, v)
  | none => .error (.decode column.1 .malformed)

def readRow (columns : List (String × WireType)) (cells : List Wire.Cell) : Except Error Record :=
  ((columns.zip cells).mapM fun f => readCell f.1 f.2).map Record.mk

def affectedRows (tag : String) : Nat :=
  let word := (tag.toList.reverse.takeWhile (· != ' ')).reverse
  match (Text.Range.unsigned 64).read (String.ofList word) with
  | .ok n => n.toNat
  | .error _ => 0

variable {σ : Type}

def sendNamed (server : Server σ) (sql : String) (b : Bindings) : Attempt σ (Prepared × Reply) := do
  let p ← ofExcept (Placeholder.toPositional sql b)
  server.send p.sql (bindValues? p.params)

def fetch (server : Server σ) (sql : String) (b : Bindings) : Attempt σ (List Record) := do
  let (prepared, reply) ← sendNamed server sql b
  ofExcept (reply.rows.mapM (readRow prepared.columns))

def execute (server : Server σ) (sql : String) (b : Bindings) : Attempt σ Nat := do
  let (_, reply) ← sendNamed server sql b
  return affectedRows reply.tag

def sequenceValue? (prepared : Prepared) (reply : Reply) : Option Value :=
  match reply.rows, prepared.columns with
  | [some bytes :: _], (_, .scalar .int8) :: _ => Wire.signedValue? 8 bytes
  | _, _ => none

/-- The code of a server that has not used a sequence in this session. -/
def noSequenceUsed : String := "55000"

def lastInsertId (server : Server σ) : Attempt σ (Option Value) :=
  tryCatch
    (do
      let (prepared, reply) ← server.send "SELECT lastval()" (bindValues? [])
      match sequenceValue? prepared reply with
      | some v => return some v
      | none => throw (.query none))
    fun e =>
      match e with
      | .query (some code) => if code = noSequenceUsed then return none else throw e
      | _ => throw e

def sessionClient (server : Server σ) : Client σ where
  dialect := .postgres
  fetch := fetch server
  execute := execute server
  lastInsertId := lastInsertId server
  describeTable := describeTable server

/-- A client on a transaction, where a question for an identifier could fail and end it; so it is
not asked. -/
def transactionClient (server : Server σ) : Client σ where
  dialect := .postgres
  fetch := fetch server
  execute := execute server
  describeTable := describeTable server

end QueryLoom.Postgres
