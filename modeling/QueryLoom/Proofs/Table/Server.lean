import Mathlib.Data.List.Nodup
import QueryLoom.Proofs.Table.Reading

/-!
# What alterations do to a table

The columns that a table has after an alteration. A complete definition replaces all that belongs to
it, and leaves the keys alone; and a constraint is dropped by its name, whatever it is a constraint
of. So the names must be distinct for a constraint to be dropped alone.
-/

set_option autoImplicit false

namespace QueryLoom

inductive Constraint where
  | primaryKey
  | unique (column : String)
  | nonNegative (column : String)
  | foreignKey (column : String)
  deriving DecidableEq

open Alteration (uniqueName unsignedName)

namespace Column

def constraints (table : String) (c : Column) : List (String × Constraint) :=
  (if c.unique then [(uniqueName table c.name, .unique c.name)] else []) ++
    (if c.unsigned then [(unsignedName table c.name, .nonNegative c.name)] else []) ++
    ((c.foreignKey.filter fun k => k.constraint ≠ "").map fun k =>
      (k.constraint, .foreignKey c.name)).toList

def less (c : Column) : Constraint → Column
  | .primaryKey => { c with primaryKey := false }
  | .unique column => if c.name = column then { c with unique := false } else c
  | .nonNegative column => if c.name = column then { c with unsigned := false } else c
  | .foreignKey column => if c.name = column then { c with foreignKey := none } else c

def defined (c target : Column) : Column :=
  { target with
    name := c.name
    primaryKey := c.primaryKey
    unique := c.unique
    foreignKey := c.foreignKey }

end Column

namespace Table

def keyName (table : String) (t : Table) : String :=
  t.primaryKeyConstraint.getD (table ++ "_pkey")

def constraints (table : String) (t : Table) : List (String × Constraint) :=
  (if t.primaryKey?.isSome then [(t.keyName table, .primaryKey)] else []) ++
    t.columns.flatMap (Column.constraints table)

def constraint? (table : String) (t : Table) (name : String) : Option Constraint :=
  ((t.constraints table).find? fun p => p.1 = name).map Prod.snd

def withColumn (t : Table) (name : String) (f : Column → Column) : List Column :=
  t.columns.map fun c => if c.name = name then f c else c

end Table

def Alteration.effect (table : String) (t : Table) : Alteration → Option (List Column)
  | .define target => some (t.withColumn target.name fun c => c.defined target)
  | .addPrimaryKey column => some (t.withColumn column Column.asPrimaryKey)
  | .dropPrimaryKey => some (t.columns.map fun c => c.less .primaryKey)
  | .dropConstraint name =>
    (t.constraint? table name).map fun k => t.columns.map fun c => c.less k
  | .setNotNull column => some (t.withColumn column Column.notNull)
  | .dropNotNull column => some (t.withColumn column fun c => { c with nullable := true })
  | .addNonNegative _ column => some (t.withColumn column fun c => { c with unsigned := true })
  | .addIdentity column => some (t.withColumn column fun c => { c with autoIncrement := true })
  | .dropIdentity column => some (t.withColumn column fun c => { c with autoIncrement := false })
  | .setDefault column literal => some (t.withColumn column fun c => c.withDefault literal)
  | .dropDefault column => some (t.withColumn column fun c => { c with defaultExpr := none })
  | .addUnique _ column => some (t.withColumn column fun c => { c with unique := true })
  | .dropIndex name =>
    some (t.columns.map fun c =>
      if uniqueName table c.name = name then { c with unique := false } else c)
  | _ => none

def Table.altered (d : Dialect) (table sql : String) (t : Table) : Option (List Column) :=
  (Alteration.read table (Text.spaced sql)).bind fun a =>
    if a.isKnown d then a.effect table t else none

@[simp] theorem Alteration.isKnown_spelled (a : Alteration) (d : Dialect) :
    a.spelled.isKnown d = a.isKnown d := by
  cases a <;> rfl

@[simp] theorem Alteration.effect_spelled (a : Alteration) (table : String) (t : Table) :
    a.spelled.effect table t = a.effect table t := by
  cases a <;> rfl

theorem Table.altered_statement {d : Dialect} {a : Alteration} {table : String}
    (htable : Text.IsSolid table) (hknown : a.isKnown d = true) (hplain : a.Plain) (t : Table) :
    t.altered d table (a.statement table) = a.effect table t := by
  rw [altered, Alteration.read_statement htable hknown hplain, Option.bind_some,
    Alteration.isKnown_spelled, if_pos hknown, Alteration.effect_spelled]

namespace Table

variable {t : Table} {table : String} {c : Column}

/-- One column is the primary key at most. On a server that drops constraints by name, their names
are distinct. -/
structure Sound (d : Dialect) (table : String) (t : Table) : Prop where
  oneKey : ∀ a ∈ t.columns, ∀ b ∈ t.columns, a.primaryKey = true → b.primaryKey = true → a = b
  constraints : d = .postgres → ((t.constraints table).map Prod.fst).Nodup

theorem eq_of_name_eq (h : (t.columns.map Column.name).Nodup) {a b : Column} (ha : a ∈ t.columns)
    (hb : b ∈ t.columns) (hname : a.name = b.name) : a = b :=
  List.inj_on_of_nodup_map h ha hb hname

theorem column?_of_mem (h : (t.columns.map Column.name).Nodup) (hc : c ∈ t.columns) :
    t.column? c.name = some c := by
  cases hfound : t.column? c.name with
  | none =>
    have hnone := List.find?_eq_none.mp hfound c hc
    simp at hnone
  | some a =>
    have hname : a.name = c.name := by simpa using List.find?_some hfound
    rw [eq_of_name_eq h (List.mem_of_find?_eq_some hfound) hc hname]

theorem withColumn_congr (h : (t.columns.map Column.name).Nodup) (hc : c ∈ t.columns)
    {f g : Column → Column} (hfg : f c = g c) : t.withColumn c.name f = t.withColumn c.name g := by
  apply List.map_congr_left
  intro a ha
  by_cases hname : a.name = c.name
  · rw [if_pos hname, if_pos hname, eq_of_name_eq h ha hc hname, hfg]
  · rw [if_neg hname, if_neg hname]

/-- A change of every column that leaves the others as they are is a change of the one. -/
theorem map_eq_withColumn {f : Column → Column} {name : String}
    (h : ∀ a ∈ t.columns, a.name ≠ name → f a = a) : t.columns.map f = t.withColumn name f := by
  apply List.map_congr_left
  intro a ha
  by_cases hname : a.name = name
  · rw [if_pos hname]
  · rw [if_neg hname, h a ha hname]

theorem withColumn_withColumn {u : Table} {name : String} {f : Column → Column}
    (hu : u.columns = t.withColumn name f) (hname : ∀ a, (f a).name = a.name)
    (g : Column → Column) : u.withColumn name g = t.withColumn name fun a => g (f a) := by
  rw [withColumn, hu, withColumn, List.map_map]
  apply List.map_congr_left
  intro a _
  by_cases h : a.name = name
  · simp [h, hname]
  · simp [h]

/-! ## Constraints -/

theorem primaryKey?_isSome :
    t.primaryKey?.isSome = true ↔ ∃ c ∈ t.columns, c.primaryKey = true := by
  rw [primaryKey?, List.find?_isSome]

theorem mem_constraints_key (hkey : t.primaryKey?.isSome = true) :
    (t.keyName table, .primaryKey) ∈ t.constraints table := by
  rw [constraints, if_pos hkey]
  simp

theorem mem_constraints_unique (hc : c ∈ t.columns) (hunique : c.unique = true) :
    (uniqueName table c.name, .unique c.name) ∈ t.constraints table := by
  apply List.mem_append_right
  apply List.mem_flatMap.mpr
  exact ⟨c, hc, by simp [Column.constraints, hunique]⟩

theorem mem_constraints_nonNegative (hc : c ∈ t.columns) (hunsigned : c.unsigned = true) :
    (unsignedName table c.name, .nonNegative c.name) ∈ t.constraints table := by
  apply List.mem_append_right
  apply List.mem_flatMap.mpr
  exact ⟨c, hc, by simp [Column.constraints, hunsigned]⟩

theorem constraint?_of_mem (hnames : ((t.constraints table).map Prod.fst).Nodup) {name : String}
    {k : Constraint} (hk : (name, k) ∈ t.constraints table) :
    t.constraint? table name = some k := by
  rw [constraint?]
  cases hfound : (t.constraints table).find? fun p => p.1 = name with
  | none =>
    have hnone := List.find?_eq_none.mp hfound _ hk
    simp at hnone
  | some p =>
    have hname : p.1 = name := by simpa using List.find?_some hfound
    rw [List.inj_on_of_nodup_map hnames (List.mem_of_find?_eq_some hfound) hk hname]
    rfl

/-- The key of the one column that has it is dropped from that column. -/
theorem map_less_primaryKey
    (hkey : ∀ a ∈ t.columns, ∀ b ∈ t.columns, a.primaryKey = true → b.primaryKey = true → a = b)
    (hc : c ∈ t.columns) (hprimary : c.primaryKey = true) :
    t.columns.map (fun a => a.less .primaryKey) =
      t.withColumn c.name fun a => { a with primaryKey := false } := by
  apply map_eq_withColumn
  intro a ha hname
  cases hprimary' : a.primaryKey with
  | true => exact absurd (congrArg Column.name (hkey a ha c hc hprimary' hprimary)) hname
  | false => rw [Column.less, ← hprimary']

end Table

theorem Alteration.uniqueName_inj {table a b : String}
    (h : uniqueName table a = uniqueName table b) : a = b := by
  have hlist := congrArg String.toList h
  apply String.toList_inj.mp
  simpa [uniqueName] using hlist

end QueryLoom
