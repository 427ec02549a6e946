import QueryLoom.Bindings
import QueryLoom.Digest.Blake3
import QueryLoom.Record
import QueryLoom.StatementKind
import QueryLoom.Text.Utf8

/-!
# The result cache

Rows of reading statements by key. An entry remembers the tables that its statement read, so that
a write to one of them can drop it.
-/

set_option autoImplicit false

namespace QueryLoom

structure Cache.Entry where
  key : String
  tables : List String
  rows : List Record
  deriving Repr

/-- At most one entry has a key. -/
structure Cache where
  entries : List Cache.Entry := []
  deriving Repr

namespace Cache

def empty : Cache := {}

def keyText (sql : String) (b : Bindings) : List Char :=
  Text.collapse sql.toList ++ '\n' :: b.toJson.chars

def key (sql : String) (b : Bindings) : String :=
  Blake3.hexDigest (Text.Utf8.encode (keyText sql b))

def find? (c : Cache) (key : String) : Option Entry := c.entries.find? fun e => e.key == key

def contains (c : Cache) (sql : String) (b : Bindings) : Bool := (c.find? (key sql b)).isSome

def get? (c : Cache) (sql : String) (b : Bindings) : Option (List Record) :=
  (c.find? (key sql b)).map Entry.rows

def insert (c : Cache) (e : Entry) : Cache :=
  ⟨c.entries.filter (fun old => old.key != e.key) ++ [e]⟩

def put (c : Cache) (sql : String) (b : Bindings) (tables : List String) (rows : List Record) :
    Bool × Cache :=
  if (StatementKind.detect sql).isCacheable then (true, c.insert ⟨key sql b, tables, rows⟩)
  else (false, c)

def clear (c : Cache) (table : String) : Nat × Cache :=
  let kept := c.entries.filter fun e => !e.tables.contains table
  (c.entries.length - kept.length, ⟨kept⟩)

def size (c : Cache) : Nat := c.entries.length

def isEmpty (c : Cache) : Bool := c.entries.isEmpty

end Cache

end QueryLoom
