import QueryLoom.Chain.Basic

/-!
# Verbs

What can be added to a chain. A verb that fails keeps what it had added before: the items of a
list up to the one that is refused.

The key of a bound value consists of the ASCII letters of a seed, or is `p` if there are none. If
it is taken, letters are appended, from `a` to `z` and over again, until it is free.
-/

set_option autoImplicit false

namespace QueryLoom.BindKey

def lettersOnly (s : String) : String := String.ofList (s.toList.filter Char.isAlpha)

def base (seed : String) : String :=
  let key := lettersOnly seed
  if key.isEmpty then "p" else key

def suffixLetter (n : Nat) : Char := Char.ofNat ('a'.toNat + n % 26)

def suffix (n : Nat) : String := String.ofList ((List.range n).map suffixLetter)

def freeFrom (b : Bindings) (key : String) (n : Nat) : Nat → String
  | 0 => key ++ suffix n
  | steps + 1 =>
    if b.contains (key ++ suffix n) then freeFrom b key (n + 1) steps else key ++ suffix n

/-- Every key that is taken rules out one number of letters, so as many steps as there are keys
always reach a free one. -/
def fresh (b : Bindings) (seed : String) : String := freeFrom b (base seed) 0 b.size

end QueryLoom.BindKey

namespace QueryLoom

namespace Chain

def bind (seed : String) (value : Value) : Attempt Chain String := do
  let c ← get
  let key := BindKey.fresh c.bindings seed
  set { c with bindings := c.bindings.insert key value }
  return key

def bindItems (seed : String) : List Value → Attempt Chain (List String)
  | [] => return []
  | v :: vs => do
    if v.isList then throw (.usage .nestedList)
    let key ← bind (seed ++ v.bare) v
    return key :: (← bindItems seed vs)

/-- What a filter compares with. NULL needs no key with the operators that can test for it. -/
def bindOperand (op : Operator) (seed : String) (value : Value) : Attempt Chain Operand := do
  if value.isNull && op.nullTest?.isSome then return .null
  if op.onlyNull then throw (.usage (.operatorNeedsNull op))
  match value with
  | .list items => return .keys (← bindItems seed items)
  | v => return .key (← bind seed v)

def addFilter (tablePrefix : String) (connective : Connective) (column operator : String)
    (value : Value) : Attempt Chain Unit := do
  let ref ← ofExcept (ColumnRef.parse tablePrefix column)
  let op ← match Operator.ofText? operator with
    | some op => pure op
    | none => throw (.usage (.unsupportedOperator operator))
  let target ← ofExcept ((← get).resolve ref)
  let operand ← bindOperand op (target.table ++ connective.keyPart ++ target.column) value
  let shown := if operand = .null then op.nullTest?.getD op else op
  modify fun c =>
    { c with filters := c.filters ++ [⟨target.table, connective, target.column, shown, operand⟩] }

def insertColumn (target : Reference) :
    List (String × List String) → List (String × List String)
  | [] => []
  | (t, cols) :: rest =>
    if t = target.table then
      (t, if cols.contains target.column then cols else cols ++ [target.column]) :: rest
    else (t, cols) :: insertColumn target rest

def selectColumn (tablePrefix item : String) : Attempt Chain Unit := do
  let ref ← ofExcept (ColumnRef.parse tablePrefix item)
  let target ← ofExcept ((← get).resolve ref)
  modify fun c =>
    let c := c.registerTable target.table
    { c with columns := insertColumn target c.columns }

def selectColumns (tablePrefix : String) : List String → Attempt Chain Unit
  | [] => return
  | item :: items => do
    selectColumn tablePrefix item
    selectColumns tablePrefix items

def addJoin (tablePrefix : String) (kind : JoinKind) (table condition : String) :
    Attempt Chain Unit := do
  let table ← ofExcept (Identifier.table tablePrefix table)
  let condition ← ofExcept (Identifier.rawFragment "join condition" condition)
  modify fun c =>
    let c := c.registerTable table
    { c with joins := c.joins ++ [⟨kind, table, condition⟩] }

def orderBy (tablePrefix column : String) (direction : Option Direction) : Attempt Chain Unit := do
  let ref ← ofExcept (ColumnRef.parse tablePrefix column)
  let target ← ofExcept ((← get).resolve ref)
  modify fun c => { c with sort := some ⟨target, direction.getD .desc⟩ }

def setGroupBy (tablePrefix column : String) : Attempt Chain Unit := do
  let ref ← ofExcept (ColumnRef.parse tablePrefix column)
  let target ← ofExcept ((← get).resolve ref)
  modify fun c => { c with groupBy := some target }

def addGroupConcat (expr label : String) : Attempt Chain Unit := do
  let expr ← ofExcept (Identifier.rawFragment "group_concat expression" expr)
  let label ← ofExcept (Identifier.column label)
  modify fun c => { c with groupConcats := c.groupConcats ++ [⟨expr, label⟩] }

def setLimit (limit : Limit) : Attempt Chain Unit :=
  modify fun c => { c with limit := some limit }

/-- Assigns the columns one by one. The column `id` is passed over, and a column that is assigned
again keeps its place. -/
def assignColumns : List (String × Value) → Attempt Chain Unit
  | [] => return
  | (column, value) :: rest => do
    if column ≠ "id" then
      if value.isList then throw (.usage (.listAssigned column))
      modify fun c => { c with payload := Bindings.put column value c.payload }
    assignColumns rest

/-- All names are checked before the first column is assigned. -/
def assign (pairs : List (String × Value)) : Attempt Chain Unit := do
  let named ← ofExcept (pairs.mapM fun p => (Identifier.column p.1).map fun c => (c, p.2))
  assignColumns named

end Chain

inductive Verb where
  | select (list : String)
  | filter (connective : Connective) (column operator : String) (value : Value)
  | join (kind : JoinKind) (table condition : String)
  | orderBy (column : String) (direction : Option Direction)
  | groupBy (column : String)
  | groupConcat (expr label : String)
  | limit (l : Limit)
  | assign (pairs : List (String × Value))
  deriving Repr

def Verb.apply (tablePrefix : String) : Verb → Attempt Chain Unit
  | .select list => Chain.selectColumns tablePrefix (Identifier.splitList list)
  | .filter connective column operator value =>
    Chain.addFilter tablePrefix connective column operator value
  | .join kind table condition => Chain.addJoin tablePrefix kind table condition
  | .orderBy column direction => Chain.orderBy tablePrefix column direction
  | .groupBy column => Chain.setGroupBy tablePrefix column
  | .groupConcat expr label => Chain.addGroupConcat expr label
  | .limit l => Chain.setLimit l
  | .assign pairs => Chain.assign pairs

def Operation.allows : Operation → Verb → Bool
  | .select, .assign _ => false
  | .select, _ => true
  | .insert, .assign _ => true
  | .insert, _ => false
  | .update, .assign _ => true
  | .update, .filter .. => true
  | .update, _ => false
  | .delete, .filter .. => true
  | .delete, _ => false

end QueryLoom
