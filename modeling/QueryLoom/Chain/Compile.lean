import QueryLoom.Chain.Basic
import QueryLoom.Dialect

/-!
# Compiled statements

A chain becomes the text of a statement with named placeholders, and their values. Each clause is
a text of its own, empty if the chain has nothing for it; in the whole statement single spaces
stand between the words.
-/

set_option autoImplicit false

namespace QueryLoom

structure Compiled where
  sql : String
  bindings : Bindings
  operation : Operation
  tables : List String
  filtered : Bool
  deriving Repr

namespace Chain

def qualify (c : Chain) (r : Reference) : String :=
  if c.isMultiTable then r.table ++ "." ++ r.column else r.column

def selectedReferences (c : Chain) : List Reference :=
  c.columns.flatMap fun e => e.2.map fun col => ⟨e.1, col⟩

def selectList (c : Chain) (d : Dialect) : String :=
  let columns := c.selectedReferences.map c.qualify
  let columns := if columns.isEmpty then ["*"] else columns
  ", ".intercalate (columns ++ c.groupConcats.map fun g => d.groupConcat g.expr g.label)

def joinTerm (j : Join) : String :=
  j.kind.keyword ++ " JOIN " ++ j.table ++ " ON " ++ j.condition

def joinClause (c : Chain) : String := " ".intercalate (c.orderedJoins.map joinTerm)

def comparison (reference : String) (op : Operator) (key : String) : String :=
  reference ++ " " ++ op.text ++ " :" ++ key

def filterTerm (c : Chain) (f : Filter) : String :=
  let reference := c.qualify ⟨f.table, f.column⟩
  match f.operand with
  | .key k => comparison reference f.operator k
  | .null => reference ++ " " ++ f.operator.text ++ " NULL"
  | .keys [] => "(1=0)"
  | .keys ks => "(" ++ " OR ".intercalate (ks.map (comparison reference f.operator)) ++ ")"

def moreTerms (c : Chain) : List Filter → String
  | [] => ""
  | f :: fs => " " ++ f.connective.keyword ++ " " ++ c.filterTerm f ++ c.moreTerms fs

def whereClause (c : Chain) : String :=
  match c.filters with
  | [] => ""
  | f :: fs => "WHERE " ++ c.filterTerm f ++ c.moreTerms fs

def groupByClause (c : Chain) : String :=
  match c.groupBy with
  | some r => "GROUP BY " ++ c.qualify r
  | none => ""

def orderByClause (c : Chain) : String :=
  match c.sort with
  | some s => "ORDER BY " ++ c.qualify s.reference ++ " " ++ s.direction.keyword
  | none => ""

def limitClause (c : Chain) (d : Dialect) : String :=
  match c.limit with
  | some l => d.limit l.offset l.count
  | none => ""

def placeholder (column : String) : String := ":" ++ column

def selectStatement (c : Chain) (d : Dialect) (table : String) : String :=
  " ".intercalate
    ["SELECT " ++ c.selectList d ++ " FROM " ++ table, c.joinClause, c.whereClause,
      c.groupByClause, c.orderByClause, c.limitClause d]

def insertStatement (c : Chain) (d : Dialect) (table : String) : String :=
  let columns := c.payload.map Prod.fst
  "INSERT INTO " ++ table ++ " (" ++ ", ".intercalate columns ++ ") VALUES (" ++
    ", ".intercalate (columns.map placeholder) ++ ")" ++
    match d with
    | .postgres => " RETURNING *"
    | .mySql => ""

def assignment (column : String) : String := column ++ " = " ++ placeholder column

def updateStatement (c : Chain) (table : String) : String :=
  "UPDATE " ++ table ++ " SET " ++
    ", ".intercalate (c.payload.map fun p => assignment p.1) ++ " " ++ c.whereClause

def deleteStatement (c : Chain) (table : String) : String :=
  "DELETE FROM " ++ table ++ " " ++ c.whereClause

def statement (c : Chain) (d : Dialect) (table : String) : Operation → Except Error String
  | .select => .ok (c.selectStatement d table)
  | .insert =>
    if c.payload.isEmpty then .error (.usage .emptyInsert) else .ok (c.insertStatement d table)
  | .update =>
    if c.payload.isEmpty then .error (.usage .emptyUpdate) else .ok (c.updateStatement table)
  | .delete => .ok (c.deleteStatement table)

def requireOperation (c : Chain) : Except Error Operation :=
  match c.operation with
  | some op => .ok op
  | none => .error (.usage .noOperation)

/-- The values of the filters, and for a write those of the payload, which win over them. -/
def compiledBindings (c : Chain) : Operation → Bindings
  | .insert => c.bindings.extend ⟨c.payload⟩
  | .update => c.bindings.extend ⟨c.payload⟩
  | _ => c.bindings

def compile (c : Chain) (d : Dialect) : Except Error Compiled := do
  let table ← c.requireTable
  let operation ← c.requireOperation
  let sql ← c.statement d table operation
  return {
    sql := String.ofList (Text.collapse sql.toList)
    bindings := c.compiledBindings operation
    operation
    tables := table :: c.orderedJoins.map Join.table
    filtered := !c.filters.isEmpty }

end Chain

end QueryLoom
