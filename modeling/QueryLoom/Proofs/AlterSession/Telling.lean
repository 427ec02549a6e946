import QueryLoom.Proofs.AlterSession.Snapshot
import QueryLoom.Proofs.Table.DefaultExpr
import QueryLoom.Proofs.Table.Server

/-!
# What verbs ask of the active column

What a verb is to leave of the active column and of the others, and the one statement that it tells
the server for it: the server reads the same alteration in it, and the alteration has that effect.
To count up takes more than one statement.
-/

set_option autoImplicit false

namespace QueryLoom

namespace AlterVerb

/-- The column as a verb asks for it. Only the primary key can count up, and what that takes to be
no longer nullable is in the definition, or else in the change of the key. -/
def imposed (d : Dialect) (c : Column) : AlterVerb → Column
  | .addPrimaryKey => c.asPrimaryKey
  | .dropPrimaryKey => { c with primaryKey := false }
  | .addNotNull _ => c.notNull
  | .dropNotNull => { c with nullable := true }
  | .addUnsigned => { c with unsigned := true }
  | .dropUnsigned => { c with unsigned := false }
  | .addAutoIncrement =>
    { c with
      primaryKey := true
      autoIncrement := true
      nullable := c.nullable && c.primaryKey && d == .postgres }
  | .dropAutoIncrement => { c with autoIncrement := false }
  | .setDefault value => c.withDefault value.literal
  | .dropDefault => { c with defaultExpr := none }
  | .addUnique => { c with unique := true }
  | .dropUnique => { c with unique := false }
  | _ => c

def leaves (d : Dialect) (c : Column) (v : AlterVerb) : Column :=
  if v.isMet c then c else v.imposed d c

def aside (c other : Column) : AlterVerb → Column
  | .addAutoIncrement =>
    if c.autoIncrement || c.primaryKey then other else { other with primaryKey := false }
  | _ => other

def requested (d : Dialect) (t : Table) (c : Column) (v : AlterVerb) : List Column :=
  t.columns.map fun other => if other.name = c.name then v.leaves d c else v.aside c other

theorem isMet_imposed {v : AlterVerb} (hv : v.isConstraint = true) (d : Dialect) (c : Column) :
    v.isMet (v.imposed d c) = true := by
  cases v with
  | setDefault value => exact DefaultExpr.same_literal value
  | addColumn | dropColumn | modifyColumn | addForeignKey | dropForeignKey => cases hv
  | _ => simp [isMet, imposed, Column.asPrimaryKey, Column.notNull]

theorem isMet_leaves {v : AlterVerb} (hv : v.isConstraint = true) (d : Dialect) (c : Column) :
    v.isMet (v.leaves d c) = true := by
  by_cases hmet : v.isMet c = true
  · rw [leaves, if_pos hmet, hmet]
  · rw [leaves, if_neg hmet, isMet_imposed hv]

theorem imposed_name (v : AlterVerb) (d : Dialect) (c : Column) :
    (v.imposed d c).name = c.name := by
  cases v <;> rfl

theorem leaves_name (v : AlterVerb) (d : Dialect) (c : Column) : (v.leaves d c).name = c.name := by
  rw [leaves]
  split
  · rfl
  · exact v.imposed_name d c

theorem aside_name (v : AlterVerb) (c other : Column) : (v.aside c other).name = other.name := by
  cases v with
  | addAutoIncrement =>
    rw [aside]
    split <;> rfl
  | _ => rfl

/-- Nothing changes if the active column is as it is asked for. -/
theorem requested_of_isMet {v : AlterVerb} {d : Dialect} {t : Table} {c : Column}
    (hnames : (t.columns.map Column.name).Nodup) (hc : c ∈ t.columns) (hmet : v.isMet c = true) :
    v.requested d t c = t.columns := by
  have hsame : ∀ other ∈ t.columns,
      (if other.name = c.name then v.leaves d c else v.aside c other) = other := by
    intro other hother
    by_cases hname : other.name = c.name
    · rw [if_pos hname, leaves, if_pos hmet, Table.eq_of_name_eq hnames hother hc hname]
    · rw [if_neg hname]
      cases v with
      | addAutoIncrement =>
        have hauto : c.autoIncrement = true := hmet
        simp [aside, hauto]
      | _ => rfl
  rw [requested, List.map_congr_left hsame, List.map_id']

/-- Any other verb leaves the other columns alone. -/
theorem requested_of_not_isMet {v : AlterVerb} {d : Dialect} {t : Table} {c : Column}
    (hauto : v ≠ .addAutoIncrement) (hmet : v.isMet c = false) :
    v.requested d t c = t.withColumn c.name fun _ => v.imposed d c := by
  apply List.map_congr_left
  intro other _
  by_cases hname : other.name = c.name
  · rw [if_pos hname, if_pos hname, leaves, hmet, if_neg Bool.false_ne_true]
  · rw [if_neg hname, if_neg hname]
    cases v with
    | addAutoIncrement => exact absurd rfl hauto
    | _ => rfl

end AlterVerb

namespace AlterSession

/-- The active column among others, under names that verbs accept. MySQL can read its definition. -/
structure Addresses (d : Dialect) (s : AlterSession) (c : Column) : Prop where
  active : s.activeColumn = .ok c
  columns : (s.snapshot.columns.map Column.name).Nodup
  plain : d = .mySql → c.Plain
  table : IsIdentifier s.table
  column : IsIdentifier c.name

structure Tells (d : Dialect) (s : AlterSession) (a : Alteration) (columns : List Column) :
    Prop where
  known : a.isKnown d = true
  plain : a.Plain
  effect : a.effect s.table s.snapshot = some columns

section

variable {d : Dialect} {s : AlterSession} {c : Column}

theorem Addresses.mem (h : s.Addresses d c) : c ∈ s.snapshot.columns := (activeColumn_ok h.active).2

theorem Addresses.uniqueName (h : s.Addresses d c) :
    Text.IsSolid (Alteration.uniqueName s.table c.name) :=
  ((h.table.isSolid.append (by decide)).append h.column.isSolid).append (by decide)

theorem Addresses.unsignedName (h : s.Addresses d c) :
    Text.IsSolid (Alteration.unsignedName s.table c.name) :=
  ((h.table.isSolid.append (by decide)).append h.column.isSolid).append (by decide)

/-- A change of the active column alone, given by what becomes of it. -/
theorem Addresses.tells {a : Alteration} {f : Column → Column} {target : Column}
    (h : s.Addresses d c) (hknown : a.isKnown d = true) (hplain : a.Plain)
    (heffect : a.effect s.table s.snapshot = some (s.snapshot.withColumn c.name f))
    (hf : f c = target) :
    Tells d s a (s.snapshot.withColumn c.name fun _ => target) := by
  refine ⟨hknown, hplain, ?_⟩
  rw [heffect, Table.withColumn_congr (g := fun _ => target) h.columns h.mem hf]

/-- A complete definition serves for any change of what is in it. -/
theorem Addresses.tells_define {target : Column} (h : s.Addresses .mySql c)
    (hname : target.name = c.name) (hplain : target.Plain) (hdefined : c.defined target = target) :
    Tells .mySql s (.define target) (s.snapshot.withColumn c.name fun _ => target) := by
  have hsolid : Text.IsSolid target.name := hname ▸ h.column.isSolid
  have heffect : (Alteration.define target).effect s.table s.snapshot =
      some (s.snapshot.withColumn c.name fun c => c.defined target) := by
    rw [Alteration.effect, hname]
  exact h.tells rfl ⟨hsolid, hplain⟩ heffect hdefined

theorem Addresses.tells_nullable (h : s.Addresses d c) (nullable : Bool) :
    Tells d s (.setNullableFor d { c with nullable })
      (s.snapshot.withColumn c.name fun _ => { c with nullable }) := by
  cases d with
  | mySql => exact h.tells_define rfl ((h.plain rfl).congr rfl rfl) rfl
  | postgres =>
    cases nullable with
    | true => exact h.tells rfl h.column.isSolid rfl rfl
    | false => exact h.tells rfl h.column.isSolid rfl rfl

theorem Addresses.tells_dropAutoIncrement (h : s.Addresses d c) :
    Tells d s (.setAutoIncrementFor d { c with autoIncrement := false })
      (s.snapshot.withColumn c.name fun _ => { c with autoIncrement := false }) := by
  cases d with
  | mySql => exact h.tells_define rfl ((h.plain rfl).congr rfl rfl) rfl
  | postgres => exact h.tells rfl h.column.isSolid rfl rfl

/-- The definition of a column that counts up says that it is not nullable. -/
theorem Addresses.tells_countUp (h : s.Addresses d c) :
    Tells d s (.setAutoIncrementFor d (counting c)) (s.snapshot.withColumn c.name fun _ =>
      { c with autoIncrement := true, nullable := c.nullable && d == .postgres }) := by
  cases d with
  | mySql =>
    have hflag : (c.nullable && Dialect.mySql == .postgres) = false := Bool.and_false _
    have hplain : (counting c).Plain := (h.plain rfl).congr rfl rfl
    rw [hflag]
    exact h.tells_define rfl hplain rfl
  | postgres => exact h.tells rfl h.column.isSolid rfl (by simp)

theorem Addresses.tells_unsigned (h : s.Addresses d c) (hsound : s.snapshot.Sound d s.table)
    {unsigned : Bool} (hchanges : c.unsigned ≠ unsigned) :
    Tells d s (.setUnsignedFor d s.table { c with unsigned })
      (s.snapshot.withColumn c.name fun _ => { c with unsigned }) := by
  cases d with
  | mySql => exact h.tells_define rfl ((h.plain rfl).congr rfl rfl) rfl
  | postgres =>
    cases unsigned with
    | true => exact h.tells rfl ⟨h.unsignedName, h.column.isSolid⟩ rfl rfl
    | false =>
      have hunsigned : c.unsigned = true := by simpa using hchanges
      have hdropped := Table.constraint?_of_mem (hsound.constraints rfl)
        (Table.mem_constraints_nonNegative h.mem hunsigned)
      refine ⟨rfl, trivial, ?_⟩
      change (s.snapshot.constraint? s.table _).map _ = _
      rw [hdropped]
      exact congrArg some (Table.withColumn_congr h.columns h.mem rfl)

theorem Addresses.tells_dropUnique (h : s.Addresses d c) (hsound : s.snapshot.Sound d s.table)
    (hunique : c.unique = true) :
    Tells d s (.dropUniqueFor d s.table c.name)
      (s.snapshot.withColumn c.name fun _ => { c with unique := false }) := by
  cases d with
  | mySql =>
    have hindex : (Alteration.dropIndex (Alteration.uniqueName s.table c.name)).effect s.table
        s.snapshot = some (s.snapshot.withColumn c.name fun c => { c with unique := false }) := by
      apply congrArg some
      apply List.map_congr_left
      intro other _
      by_cases hname : other.name = c.name
      · rw [if_pos hname, if_pos (congrArg _ hname)]
      · rw [if_neg hname, if_neg fun hsame => hname (Alteration.uniqueName_inj hsame)]
    exact h.tells rfl trivial hindex rfl
  | postgres =>
    have hdropped := Table.constraint?_of_mem (hsound.constraints rfl)
      (Table.mem_constraints_unique h.mem hunique)
    refine ⟨rfl, trivial, ?_⟩
    change (s.snapshot.constraint? s.table _).map _ = _
    rw [hdropped]
    exact congrArg some (Table.withColumn_congr h.columns h.mem rfl)

/-- The key is dropped as a whole, whichever column has it. -/
theorem tells_keyDrop (hsound : s.snapshot.Sound d s.table)
    (hkey : s.snapshot.primaryKey?.isSome = true) :
    Tells d s (keyDrop d s) (s.snapshot.columns.map fun other => other.less .primaryKey) := by
  cases d with
  | mySql => exact ⟨rfl, trivial, rfl⟩
  | postgres =>
    have hnamed : (s.snapshot.keyName s.table, .primaryKey) ∈ s.snapshot.constraints s.table :=
      Table.mem_constraints_key hkey
    have hdropped := Table.constraint?_of_mem (hsound.constraints rfl) hnamed
    refine ⟨rfl, trivial, ?_⟩
    change (s.snapshot.constraint? s.table (s.snapshot.keyName s.table)).map _ = _
    rw [hdropped]
    rfl

theorem Addresses.tells_dropPrimaryKey (h : s.Addresses d c)
    (hsound : s.snapshot.Sound d s.table) (hkey : c.primaryKey = true) :
    Tells d s (keyDrop d s)
      (s.snapshot.withColumn c.name fun _ => { c with primaryKey := false }) := by
  have hdrop := tells_keyDrop hsound (Table.primaryKey?_isSome.mpr ⟨c, h.mem, hkey⟩)
  rw [Table.map_less_primaryKey hsound.oneKey h.mem hkey] at hdrop
  refine ⟨hdrop.known, hdrop.plain, ?_⟩
  rw [hdrop.effect]
  exact congrArg some (Table.withColumn_congr h.columns h.mem rfl)

/-- Whatever a verb asks for, save to count up, takes one statement on the columns. -/
theorem Addresses.steps_tell (h : s.Addresses d c) (hsound : s.snapshot.Sound d s.table)
    {v : AlterVerb} (hv : v.isConstraint = true) (hauto : v ≠ .addAutoIncrement)
    (hmet : v.isMet c = false) :
    ∃ a, (v.steps d s c = [.alter a] ∨ ∃ value, v.steps d s c = [.fill c.name value, .alter a]) ∧
      Tells d s a (s.snapshot.withColumn c.name fun _ => v.imposed d c) := by
  have hname := h.column.isSolid
  cases v with
  | addPrimaryKey => exact ⟨_, Or.inl rfl, h.tells rfl hname rfl rfl⟩
  | dropPrimaryKey =>
    exact ⟨_, Or.inl rfl, h.tells_dropPrimaryKey hsound (by simpa [AlterVerb.isMet] using hmet)⟩
  | addNotNull backfill =>
    cases backfill with
    | none => exact ⟨_, Or.inl rfl, h.tells_nullable false⟩
    | some value => exact ⟨_, Or.inr ⟨value, rfl⟩, h.tells_nullable false⟩
  | dropNotNull => exact ⟨_, Or.inl rfl, h.tells_nullable true⟩
  | addUnsigned =>
    exact ⟨_, Or.inl rfl, h.tells_unsigned hsound (by simpa [AlterVerb.isMet] using hmet)⟩
  | dropUnsigned =>
    exact ⟨_, Or.inl rfl, h.tells_unsigned hsound (by simpa [AlterVerb.isMet] using hmet)⟩
  | addAutoIncrement => exact absurd rfl hauto
  | dropAutoIncrement => exact ⟨_, Or.inl rfl, h.tells_dropAutoIncrement⟩
  | setDefault value => exact ⟨_, Or.inl rfl, h.tells rfl hname rfl rfl⟩
  | dropDefault => exact ⟨_, Or.inl rfl, h.tells rfl hname rfl rfl⟩
  | addUnique => exact ⟨_, Or.inl rfl, h.tells rfl ⟨h.uniqueName, hname⟩ rfl rfl⟩
  | dropUnique =>
    exact ⟨_, Or.inl rfl, h.tells_dropUnique hsound (by simpa [AlterVerb.isMet] using hmet)⟩
  | addColumn | dropColumn | modifyColumn | addForeignKey | dropForeignKey => cases hv

end

end AlterSession

end QueryLoom
