import QueryLoom.Json.Reader

/-!
# Table descriptions

What a server reports of a table: its columns in order, with their types, defaults and
constraints.
-/

set_option autoImplicit false

namespace QueryLoom

structure ForeignKey where
  constraint : String
  table : String
  column : String
  deriving DecidableEq, Repr, Inhabited

structure Column where
  name : String
  /-- As the server spells it, without the unsigned flag. -/
  dataType : String
  nullable : Bool := true
  defaultExpr : Option String := none
  primaryKey : Bool := false
  unique : Bool := false
  autoIncrement : Bool := false
  unsigned : Bool := false
  foreignKey : Option ForeignKey := none
  deriving DecidableEq, Repr, Inhabited

namespace Column

def notNull (c : Column) : Column := { c with nullable := false }

def asPrimaryKey (c : Column) : Column := { c with primaryKey := true, nullable := false }

def withDefault (c : Column) (expr : String) : Column := { c with defaultExpr := some expr }

end Column

structure Table where
  name : String
  columns : List Column := []
  primaryKeyConstraint : Option String := none
  deriving DecidableEq, Repr, Inhabited

namespace Table

def addColumn (t : Table) (c : Column) : Table := { t with columns := t.columns ++ [c] }

def column? (t : Table) (name : String) : Option Column := t.columns.find? fun c => c.name == name

def primaryKey? (t : Table) : Option Column := t.columns.find? Column.primaryKey

end Table

end QueryLoom
