import QueryLoom.Bindings
import QueryLoom.Error
import QueryLoom.Identifier

/-!
# Chains

A chain is one statement in the making: the table and operation it was started with, and what its
verbs have added since. Values are bound under keys as they come in; a chain holds the keys.
-/

set_option autoImplicit false

namespace QueryLoom

inductive Operation where
  | select
  | insert
  | update
  | delete
  deriving DecidableEq, Repr

def Operation.name : Operation → String
  | .select => "select"
  | .insert => "insert"
  | .update => "update"
  | .delete => "delete"

inductive Connective where
  | and
  | or
  deriving DecidableEq, Repr

namespace Connective

def keyword : Connective → String
  | .and => "AND"
  | .or => "OR"

def keyPart : Connective → String
  | .and => "and"
  | .or => "or"

end Connective

inductive JoinKind where
  | left
  | inner
  | right
  | fullOuter
  deriving DecidableEq, Repr

namespace JoinKind

def order : List JoinKind := [.left, .inner, .right, .fullOuter]

def name : JoinKind → String
  | .left => "left"
  | .inner => "inner"
  | .right => "right"
  | .fullOuter => "full_outer"

def keyword : JoinKind → String
  | .left => "LEFT"
  | .inner => "INNER"
  | .right => "RIGHT"
  | .fullOuter => "FULL OUTER"

end JoinKind

inductive Direction where
  | asc
  | desc
  deriving DecidableEq, Repr

def Direction.keyword : Direction → String
  | .asc => "ASC"
  | .desc => "DESC"

inductive Operand where
  | key (k : String)
  | keys (ks : List String)
  | null
  deriving DecidableEq, Repr

structure Filter where
  table : String
  connective : Connective
  column : String
  operator : Operator
  operand : Operand
  deriving DecidableEq, Repr

structure Join where
  kind : JoinKind
  table : String
  condition : String
  deriving DecidableEq, Repr

structure Reference where
  table : String
  column : String
  deriving DecidableEq, Repr

structure SortTerm where
  reference : Reference
  direction : Direction
  deriving DecidableEq, Repr

structure GroupConcat where
  expr : String
  label : String
  deriving DecidableEq, Repr

structure Limit where
  offset : Nat
  count : Option Nat
  deriving DecidableEq, Repr

def Limit.single : Limit := ⟨1, none⟩

structure Chain where
  table : Option String := none
  operation : Option Operation := none
  /-- The tables that take part, in the order in which they came in, with the columns selected
  from each. -/
  columns : List (String × List String) := []
  filters : List Filter := []
  joins : List Join := []
  sort : Option SortTerm := none
  groupBy : Option Reference := none
  groupConcats : List GroupConcat := []
  limit : Option Limit := none
  payload : List (String × Value) := []
  bindings : Bindings := {}
  deriving Repr, Inhabited

namespace Chain

def fresh : Chain := {}

def isFresh (c : Chain) : Bool :=
  c.table.isNone && c.operation.isNone && c.columns.isEmpty && c.filters.isEmpty &&
    c.joins.isEmpty && c.sort.isNone && c.groupBy.isNone && c.groupConcats.isEmpty &&
    c.limit.isNone && c.payload.isEmpty && c.bindings.isEmpty

def isMultiTable (c : Chain) : Bool := 1 < c.columns.length

def joinsOf (c : Chain) (kind : JoinKind) : List Join := c.joins.filter fun j => j.kind == kind

def orderedJoins (c : Chain) : List Join := JoinKind.order.flatMap c.joinsOf

def registerTable (c : Chain) (table : String) : Chain :=
  if c.columns.any fun e => e.1 == table then c
  else { c with columns := c.columns ++ [(table, [])] }

def start (operation : Operation) (table : String) : Chain :=
  { fresh.registerTable table with table := some table, operation := some operation }

def requireTable (c : Chain) : Except Error String :=
  match c.table with
  | some t => .ok t
  | none => .error (.usage .noTable)

def resolve (c : Chain) (ref : ColumnRef) : Except Error Reference :=
  match ref.table with
  | some t => .ok ⟨t, ref.column⟩
  | none => c.requireTable.map fun t => ⟨t, ref.column⟩

end Chain

end QueryLoom
