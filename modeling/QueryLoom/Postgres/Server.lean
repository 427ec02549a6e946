import QueryLoom.Error
import QueryLoom.Table.Basic
import QueryLoom.Wire.Decode

/-!
# Servers

A server prepares a statement, which tells the types of its parameters and of its columns, and
then runs it with values in binary form.

One statement asks the catalog for the columns of a table, one row for a column. The fields of a
row are found by name and have to be texts or truth values; a field may be NULL where the
description may lack what it tells.
-/

set_option autoImplicit false

namespace QueryLoom.Postgres

structure Prepared where
  params : List WireType := []
  columns : List (String × WireType) := []
  deriving Repr

structure Reply where
  rows : List (List Wire.Cell) := []
  tag : String := "OK"
  deriving Repr

structure Server (σ : Type) where
  prepare : String → Attempt σ Prepared
  run : List Wire.Cell → Attempt σ Reply

def Server.send {σ : Type} (server : Server σ) (sql : String)
    (bind? : List WireType → Option (List Wire.Cell)) : Attempt σ (Prepared × Reply) := do
  let prepared ← server.prepare sql
  match bind? prepared.params with
  | none => throw (.query none)
  | some cells => return (prepared, ← server.run cells)

/-! ## Descriptions from the catalog -/

def describeStatement : String := "\n".intercalate [
  "",
  "SELECT",
  "  a.attname::text AS column_name,",
  "  pg_catalog.format_type(a.atttypid, a.atttypmod) AS data_type,",
  "  a.attnotnull AS not_null,",
  "  pg_catalog.pg_get_expr(ad.adbin, ad.adrelid) AS default_expr,",
  "  (a.attidentity <> '') AS is_identity,",
  "  pk.conname::text AS pk_name,",
  "  EXISTS (",
  "    SELECT 1 FROM pg_catalog.pg_constraint u",
  "    WHERE u.conrelid = c.oid AND u.contype = 'u' AND u.conkey = ARRAY[a.attnum]",
  "  ) AS is_unique,",
  "  EXISTS (",
  "    SELECT 1 FROM pg_catalog.pg_constraint ck",
  "    WHERE ck.conrelid = c.oid AND ck.contype = 'c'",
  "      AND ck.conname::text = c.relname::text || '_' || a.attname::text || '_unsigned'",
  "  ) AS is_unsigned,",
  "  fk.conname::text AS fk_name,",
  "  fr.relname::text AS fk_table,",
  "  fa.attname::text AS fk_column",
  "FROM pg_catalog.pg_class c",
  "JOIN pg_catalog.pg_attribute a ON a.attrelid = c.oid",
  "LEFT JOIN pg_catalog.pg_attrdef ad ON ad.adrelid = c.oid AND ad.adnum = a.attnum",
  "LEFT JOIN pg_catalog.pg_constraint pk",
  "  ON pk.conrelid = c.oid AND pk.contype = 'p' AND a.attnum = ANY(pk.conkey)",
  "LEFT JOIN LATERAL (",
  "  SELECT f.conname, f.confrelid, f.confkey FROM pg_catalog.pg_constraint f",
  "  WHERE f.conrelid = c.oid AND f.contype = 'f' AND f.conkey = ARRAY[a.attnum]",
  "  LIMIT 1",
  ") fk ON TRUE",
  "LEFT JOIN pg_catalog.pg_class fr ON fr.oid = fk.confrelid",
  "LEFT JOIN pg_catalog.pg_attribute fa ON fa.attrelid = fk.confrelid " ++
    "AND fa.attnum = fk.confkey[1]",
  "WHERE c.relname = $1",
  "  AND c.relkind IN ('r', 'p')",
  "  AND pg_catalog.pg_table_is_visible(c.oid)",
  "  AND a.attnum > 0",
  "  AND NOT a.attisdropped",
  "ORDER BY a.attnum",
  ""]

/-! ## Fields of a row -/

abbrev CatalogRow := List (String × WireType × Wire.Cell)

def catalogRow (columns : List (String × WireType)) (cells : List Wire.Cell) : CatalogRow :=
  columns.zip cells |>.map fun (column, cell) => (column.1, column.2, cell)

def field? (row : CatalogRow) (name : String) : Option (WireType × Wire.Cell) :=
  row.lookup name <|>
    (row.find? fun f => Text.asciiLower f.1 == Text.asciiLower name).map Prod.snd

structure FieldKind (α : Type) where
  accepts : WireType → Bool
  read? : WireType → List UInt8 → Option α

def FieldKind.text : FieldKind String := ⟨WireType.acceptsText, Wire.decodeText?⟩

def FieldKind.bool : FieldKind Bool := ⟨fun t => t == .scalar .bool, fun _ => Wire.bool?⟩

def optional {α : Type} (kind : FieldKind α) (row : CatalogRow) (name : String) :
    Except Error (Option α) :=
  match field? row name with
  | none => .error (.decode name .missingColumn)
  | some (t, cell) =>
    if !kind.accepts t then .error (.decode name .wrongColumnType)
    else
      match cell with
      | none => .ok none
      | some bytes =>
        match kind.read? t bytes with
        | some a => .ok (some a)
        | none => .error (.decode name .malformed)

def required {α : Type} (kind : FieldKind α) (row : CatalogRow) (name : String) :
    Except Error α := do
  match ← optional kind row name with
  | some a => return a
  | none => throw (.decode name .unexpectedNull)

/-! ## Columns -/

def readForeignKey (row : CatalogRow) : Except Error (Option ForeignKey) := do
  match ← optional .text row "fk_name" with
  | none => return none
  | some constraint =>
    let table ← optional .text row "fk_table"
    let column ← optional .text row "fk_column"
    return some ⟨constraint, table.getD "", column.getD ""⟩

def readColumn (row : CatalogRow) : Except Error Column := do
  let foreignKey ← readForeignKey row
  let name ← required .text row "column_name"
  let dataType ← required .text row "data_type"
  let notNull ← required .bool row "not_null"
  let defaultExpr ← optional .text row "default_expr"
  let primaryKey ← optional .text row "pk_name"
  let unique ← required .bool row "is_unique"
  let autoIncrement ← required .bool row "is_identity"
  let unsigned ← required .bool row "is_unsigned"
  return {
    name, dataType, nullable := !notNull, defaultExpr, primaryKey := primaryKey.isSome, unique
    autoIncrement, unsigned, foreignKey }

def addRow (t : Table) (row : CatalogRow) : Except Error Table := do
  let column ← readColumn row
  let constraint ← match t.primaryKeyConstraint with
    | some name => pure (some name)
    | none => optional .text row "pk_name"
  return { t.addColumn column with primaryKeyConstraint := constraint }

def bindName? (name : String) : List WireType → Option (List Wire.Cell)
  | [t] => if t.acceptsText then some [some (Wire.encodeText t name)] else none
  | _ => none

def describeTable {σ : Type} (server : Server σ) (name : String) : Attempt σ Table := do
  let (prepared, reply) ← server.send describeStatement (bindName? name)
  if reply.rows.isEmpty then throw (.usage (.tableMissing name))
  ofExcept <| (reply.rows.map (catalogRow prepared.columns)).foldlM addRow { name }

end QueryLoom.Postgres
