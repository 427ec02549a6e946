import QueryLoom.Proofs.AlterSession.Telling

/-!
# Verbs reach what they ask for

On a server that does what its statements say, a verb that asks something of the active column
leaves that column as it asks, and has nothing more to do when it is asked again. All else stays as
it was, except that a column that is to count up becomes the primary key in place of another one.
-/

set_option autoImplicit false

namespace QueryLoom

open Text (spaced spaced_solid spaced_append)

variable {σ : Type} {description : σ → String → Table}

/-- The server does what the statements say that its dialect knows. -/
structure Client.Alters (client : Client σ) (d : Dialect)
    (description : σ → String → Table) : Prop extends client.Describes description where
  altered : ∀ table sql s, ∀ columns ∈ (description s table).altered d table sql,
    ((client.execute sql .empty).outcome s).1.isOk = true ∧
      (description ((client.execute sql .empty).outcome s).2 table).columns = columns
  backfilled : ∀ table s, ∀ c ∈ (description s table).columns, ∀ b,
    ((client.execute (AlterSession.backfillStatement table c.name) b).outcome s).1.isOk = true

namespace AlterSession

section

variable {db : Database σ} {run : SessionRun σ} {c : Column}

theorem change_tells (h : db.client.Alters db.dialect description) (hrun : run.Current description)
    (htable : IsIdentifier run.session.table) {a : Alteration} {columns : List Column}
    (ha : Tells db.dialect run.session a columns) :
    ∃ next, (change db a).outcome run = (.ok (), next) ∧ Follows description run next ∧
      next.session.snapshot.columns = columns := by
  have haltered : (description run.store.connection run.session.table).altered db.dialect
      run.session.table (a.statement run.session.table) = some columns := by
    rw [Table.altered_statement htable.isSolid ha.known ha.plain, ← ha.effect]
    exact congrArg (fun t => a.effect run.session.table t) hrun.symm
  obtain ⟨hok, hcolumns⟩ := h.altered _ _ run.store.connection columns haltered
  obtain ⟨next, hout, hfollows, hsnapshot⟩ := change_succeeds h.toDescribes hrun hok
  exact ⟨next, hout, hfollows, hsnapshot ▸ hcolumns⟩

theorem fill_backfills (h : db.client.Alters db.dialect description)
    (hrun : run.Current description) (hc : c ∈ run.session.snapshot.columns) (value : Value) :
    ∃ next, ((Step.fill c.name value).run db).outcome run = (.ok (), next) ∧
      Follows description run next ∧ next.session = run.session := by
  have hfollows := fill_follows h.toDescribes hrun hc value
  have hmem : c ∈ (run.described description).columns := by
    rw [← hrun]
    exact hc
  have hok := h.backfilled run.session.table run.store.connection c hmem
    (Bindings.empty.insert "backfill" value)
  rw [fill_outcome] at hfollows ⊢
  rcases hcall : (db.client.execute (backfillStatement run.session.table c.name)
    (Bindings.empty.insert "backfill" value)).outcome run.store.connection with ⟨_ | n, s⟩
  · rw [hcall] at hok
    cases hok
  · rw [hcall] at hfollows
    exact ⟨written run s, rfl, hfollows, rfl⟩

theorem activeColumn_map {s s' : AlterSession} (hc : s.activeColumn = .ok c)
    (hnames : (s.snapshot.columns.map Column.name).Nodup) (hactive : s'.active = s.active)
    {f : Column → Column} (hcolumns : s'.snapshot.columns = s.snapshot.columns.map f)
    (hname : ∀ a, (f a).name = a.name) :
    s'.activeColumn = .ok (f c) ∧ (s'.snapshot.columns.map Column.name).Nodup := by
  obtain ⟨hchosen, hmem⟩ := activeColumn_ok hc
  have hsame : Column.name ∘ f = Column.name := funext hname
  have hnames' : (s'.snapshot.columns.map Column.name).Nodup := by
    rw [hcolumns, List.map_map, hsame]
    exact hnames
  have hmem' : f c ∈ s'.snapshot.columns := hcolumns ▸ List.mem_map_of_mem hmem
  have hchosen' : s'.active = some (f c).name := by
    rw [hactive, hchosen, hname]
  exact ⟨by simp [activeColumn, hchosen', Table.column?_of_mem hnames' hmem'], hnames'⟩

theorem Addresses.map {s s' : AlterSession} {d : Dialect} (h : s.Addresses d c)
    (htable : s'.table = s.table) (hactive : s'.active = s.active) {f : Column → Column}
    (hcolumns : s'.snapshot.columns = s.snapshot.columns.map f) (hname : ∀ a, (f a).name = a.name)
    (hplain : d = .mySql → (f c).Plain) : s'.Addresses d (f c) := by
  obtain ⟨hactive', hnames⟩ := activeColumn_map h.active h.columns hactive hcolumns hname
  exact ⟨hactive', hnames, hplain, htable ▸ h.table, hname c ▸ h.column⟩

/-- The column becomes the key, and then counts up as the new snapshot has it. -/
theorem promote_requested (h : db.client.Alters db.dialect description)
    (hrun : run.Current description) (hc : run.session.Addresses db.dialect c)
    (hkey : c.primaryKey = false) :
    ∃ next, (perform db [.alter (.addPrimaryKey c.name), .countUp]).outcome run = (.ok (), next) ∧
      Follows description run next ∧ next.session.snapshot.columns =
        run.session.snapshot.withColumn c.name fun _ =>
          AlterVerb.addAutoIncrement.imposed db.dialect c := by
  have hadd : Tells db.dialect run.session (.addPrimaryKey c.name)
      (run.session.snapshot.withColumn c.name Column.asPrimaryKey) :=
    ⟨rfl, hc.column.isSolid, rfl⟩
  obtain ⟨keyed, hout, hfollows, hcolumns⟩ := change_tells h hrun hc.table hadd
  have hactive : keyed.session.Addresses db.dialect c.asPrimaryKey := by
    have hmap := hc.map hfollows.table hfollows.active hcolumns (fun a => by split <;> rfl)
    rw [if_pos rfl] at hmap
    exact hmap fun hd => (hc.plain hd).congr rfl rfl
  obtain ⟨next, hout', hfollows', hcolumns'⟩ :=
    change_tells h hfollows.current hactive.table hactive.tells_countUp
  refine ⟨next, ?_, hfollows.trans hfollows', ?_⟩
  · rw [perform_alter_ok hout, perform_single, countUp_outcome, hactive.active]
    exact hout'
  -- The two changes of the one column are one change of it.
  · rw [hcolumns']
    apply (Table.withColumn_withColumn hcolumns (fun a => rfl) _).trans
    simp [AlterVerb.imposed, hkey, Column.asPrimaryKey]

/-- Another key than the column gives way before. -/
theorem demote_requested (h : db.client.Alters db.dialect description)
    (hrun : run.Current description) (hc : run.session.Addresses db.dialect c)
    (hsound : run.session.snapshot.Sound db.dialect run.session.table)
    (hkey : c.primaryKey = false) (hold : run.session.snapshot.primaryKey?.isSome = true) :
    ∃ next, (perform db [.alter (keyDrop db.dialect run.session), .alter (.addPrimaryKey c.name),
        .countUp]).outcome run = (.ok (), next) ∧
      Follows description run next ∧ next.session.snapshot.columns =
        run.session.snapshot.columns.map fun other =>
          if other.name = c.name then AlterVerb.addAutoIncrement.imposed db.dialect c
          else other.less .primaryKey := by
  obtain ⟨demoted, hout, hfollows, hcolumns⟩ :=
    change_tells h hrun hc.table (tells_keyDrop hsound hold)
  have hsame : c.less .primaryKey = c := by
    rw [Column.less, ← hkey]
  have hactive := hc.map hfollows.table hfollows.active hcolumns (fun _ => rfl)
    fun hd => hsame.symm ▸ hc.plain hd
  rw [hsame] at hactive
  obtain ⟨next, hout', hfollows', hcolumns'⟩ := promote_requested h hfollows.current hactive hkey
  refine ⟨next, ?_, hfollows.trans hfollows', ?_⟩
  · rw [perform_alter_ok hout]
    exact hout'
  · rw [hcolumns', Table.withColumn, hcolumns, List.map_map]
    rfl

theorem addAutoIncrement_requested (h : db.client.Alters db.dialect description)
    (hrun : run.Current description) (hc : run.session.Addresses db.dialect c)
    (hsound : run.session.snapshot.Sound db.dialect run.session.table)
    (hmet : c.autoIncrement = false) :
    ∃ next, (perform db (AlterVerb.addAutoIncrement.steps db.dialect run.session c)).outcome run =
        (.ok (), next) ∧ Follows description run next ∧ next.session.snapshot.columns =
          AlterVerb.addAutoIncrement.requested db.dialect run.session.snapshot c := by
  have hleaves : AlterVerb.addAutoIncrement.leaves db.dialect c =
      AlterVerb.addAutoIncrement.imposed db.dialect c := by
    simp [AlterVerb.leaves, AlterVerb.isMet, hmet]
  rw [AlterVerb.steps, AlterVerb.requested, hleaves]
  cases hkey : c.primaryKey with
  | true =>
    obtain ⟨next, hout, hfollows, hcolumns⟩ := change_tells h hrun hc.table hc.tells_countUp
    refine ⟨next, ?_, hfollows, ?_⟩
    · rw [if_pos rfl, perform_single, countUp_outcome, hc.active]
      exact hout
    · rw [hcolumns]
      simp [Table.withColumn, AlterVerb.imposed, AlterVerb.aside, hkey]
  | false =>
    rw [if_neg Bool.false_ne_true]
    have haside : ∀ other, AlterVerb.addAutoIncrement.aside c other = other.less .primaryKey := by
      simp [AlterVerb.aside, hmet, hkey, Column.less]
    simp only [haside]
    by_cases hold : run.session.snapshot.primaryKey?.isSome = true
    · rw [if_pos hold]
      exact demote_requested h hrun hc hsound hkey hold
    -- Where there is no key, there is none to take from another column.
    · rw [if_neg hold]
      obtain ⟨next, hout, hfollows, hcolumns⟩ := promote_requested h hrun hc hkey
      refine ⟨next, hout, hfollows, ?_⟩
      rw [hcolumns]
      apply List.map_congr_left
      intro other hother
      have hless : other.less .primaryKey = other := by
        cases hprimary : other.primaryKey with
        | true => exact absurd (Table.primaryKey?_isSome.mpr ⟨other, hother, hprimary⟩) hold
        | false => rw [Column.less, ← hprimary]
      rw [hless]

theorem steps_requested (h : db.client.Alters db.dialect description)
    (hrun : run.Current description) (hc : run.session.Addresses db.dialect c)
    (hsound : run.session.snapshot.Sound db.dialect run.session.table) {v : AlterVerb}
    (hv : v.isConstraint = true) (hmet : v.isMet c = false) :
    ∃ next, (perform db (v.steps db.dialect run.session c)).outcome run = (.ok (), next) ∧
      Follows description run next ∧
      next.session.snapshot.columns = v.requested db.dialect run.session.snapshot c := by
  by_cases hauto : v = .addAutoIncrement
  · subst hauto
    exact addAutoIncrement_requested h hrun hc hsound hmet
  · rw [AlterVerb.requested_of_not_isMet hauto hmet]
    obtain ⟨a, hsteps | ⟨value, hsteps⟩, ha⟩ := hc.steps_tell hsound hv hauto hmet
    · rw [hsteps, perform_single]
      exact change_tells h hrun hc.table ha
    · obtain ⟨filled, hout, hfollows, hsession⟩ := fill_backfills h hrun hc.mem value
      rw [← hsession] at ha
      obtain ⟨next, hout', hfollows', hcolumns⟩ :=
        change_tells h hfollows.current (hsession ▸ hc.table) ha
      refine ⟨next, ?_, hfollows.trans hfollows', hsession ▸ hcolumns⟩
      rw [hsteps, perform_cons_ok hout, perform_single]
      exact hout'

/-- Every verb that asks something of the active column succeeds, whether or not there is anything
to do for it. The active column is then as it asks, and so is every other one; and if it is asked
again at once nothing is done. -/
theorem alter_requested (h : db.client.Alters db.dialect description)
    (hrun : run.Current description) (hc : run.session.Addresses db.dialect c)
    (hsound : run.session.snapshot.Sound db.dialect run.session.table) {v : AlterVerb}
    (hv : v.isConstraint = true) :
    ∃ next, (v.apply db).outcome run = (.ok (), next) ∧ Follows description run next ∧
      next.session.snapshot.columns = v.requested db.dialect run.session.snapshot c ∧
      next.session.activeColumn = .ok (v.leaves db.dialect c) ∧
      v.isMet (v.leaves db.dialect c) = true ∧
      (v.apply db).outcome next = (.ok (), next) := by
  have hplan : ∀ {run : SessionRun σ} {c : Column}, run.session.activeColumn = .ok c →
      (v.apply db).outcome run =
        (perform db (if v.isMet c then [] else v.steps db.dialect run.session c)).outcome run := by
    intro run c hactive
    rw [apply_outcome, plan_of_isConstraint hv, hactive]
    rfl
  have hdone : ∃ next, (v.apply db).outcome run = (.ok (), next) ∧ Follows description run next ∧
      next.session.snapshot.columns = v.requested db.dialect run.session.snapshot c := by
    rw [hplan hc.active]
    cases hmet : v.isMet c with
    | true =>
      rw [AlterVerb.requested_of_isMet hc.columns hc.mem hmet]
      exact ⟨run, rfl, ⟨hrun, rfl, rfl⟩, rfl⟩
    | false => exact steps_requested h hrun hc hsound hv hmet
  obtain ⟨next, hout, hfollows, hcolumns⟩ := hdone
  have hactive : next.session.activeColumn = .ok (v.leaves db.dialect c) := by
    have hmap := activeColumn_map hc.active hc.columns hfollows.active hcolumns fun other => by
      by_cases hname : other.name = c.name
      · rw [if_pos hname, v.leaves_name, hname]
      · rw [if_neg hname, v.aside_name]
    rw [if_pos rfl] at hmap
    exact hmap.1
  have hmet := v.isMet_leaves hv db.dialect c
  refine ⟨next, hout, hfollows, hcolumns, hactive, hmet, ?_⟩
  rw [hplan hactive, if_pos hmet]
  rfl

end

end AlterSession

def Table.obey (d : Dialect) (sql : String) (t : Table) : Option Table :=
  match spaced sql with
  | "UPDATE" :: _ => some t
  | "ALTER" :: "TABLE" :: table :: _ =>
    (t.altered d table sql).map fun columns => { t with columns }
  | _ => none

theorem Table.obey_backfill (d : Dialect) (table column : String) (t : Table) :
    t.obey d (AlterSession.backfillStatement table column) = some t := by
  have hwords : AlterSession.backfillStatement table column = "UPDATE" ++ " " ++
      (table ++ " SET " ++ column ++ " = :backfill WHERE " ++ column ++ " IS NULL") := by
    apply String.toList_inj.mp
    unfold AlterSession.backfillStatement
    simp
  rw [obey, hwords, spaced_append (.inl (by decide)), spaced_solid (by decide)]
  rfl

theorem Table.obey_altered {d : Dialect} {table sql : String} {t : Table} {columns : List Column}
    (h : t.altered d table sql = some columns) : t.obey d sql = some { t with columns } := by
  have hread : ∃ clause, spaced sql = "ALTER" :: "TABLE" :: table :: clause := by
    rw [altered] at h
    obtain ⟨a, hread, -⟩ := Option.bind_eq_some_iff.mp h
    unfold Alteration.read at hread
    split at hread
    · rename_i name clause hwords
      split at hread
      · rename_i hname
        exact ⟨clause, hname ▸ hwords⟩
      · cases hread
    · cases hread
  obtain ⟨clause, hwords⟩ := hread
  rw [obey, hwords]
  simp [h]

/-- There is a server that does all it is told. -/
theorem Client.knowing_alters (d : Dialect) :
    (Client.knowing (Table.obey d)).Alters d fun t _ => t := by
  constructor
  · apply Client.knowing_describes
    intro table column t u hu
    rw [Table.obey_backfill] at hu
    exact (Option.some.inj hu).symm
  · intro table sql t columns hcolumns
    rw [knowing_execute, Table.obey_altered hcolumns]
    exact ⟨rfl, rfl⟩
  · intro table t c _ b
    rw [knowing_execute, Table.obey_backfill]
    rfl

namespace AlterSession

def obedient (d : Dialect) : Database Table := ⟨.knowing (Table.obey d), { dialect := some d }⟩

def on (t : Table) (column : String) : SessionRun Table := ⟨⟨"users", t, some column⟩, ⟨t, none⟩⟩

def clashing : Table :=
  (Table.mk "users" [] (some "users_email_key")).addColumn
      (Column.asPrimaryKey { name := "id", dataType := "int" })
    |>.addColumn { name := "email", dataType := "text", unique := true }

def doubled : Table :=
  (Table.mk "users" [] none).addColumn { name := "size", dataType := "int UNSIGNED" }

/-- The key is not made unique, the key of that name is dropped in place of the other constraint,
and the definition of a column that is to be not nullable makes it unsigned. -/
theorem unmet_requests :
    (∀ t ∈ [members, clashing, doubled], (t.columns.map Column.name).Nodup ∧
      (t.columns.filter Column.primaryKey).length ≤ 1) ∧
      ((AlterVerb.addUnique.after (obedient .postgres) (on members "id")).session.activeColumn
        |>.toOption.map Column.unique) = some false ∧
      ((AlterVerb.dropUnique.after (obedient .postgres) (on clashing "email")).session.activeColumn
        |>.toOption.map Column.unique) = some true ∧
      (doubled.column? "size").map Column.unsigned = some false ∧
      (((AlterVerb.addNotNull none).after (obedient .mySql)
        (on doubled "size")).session.activeColumn |>.toOption.map Column.unsigned) = some true := by
  decide +kernel

/-- The key passes from one column to another, and it takes three statements. -/
theorem email_counts :
    ∃ next, (AlterVerb.addAutoIncrement.apply (obedient .mySql)).outcome (on members "email") =
        (.ok (), next) ∧
      next.session.snapshot.columns =
        [{ name := "id", dataType := "int", nullable := false },
          { name := "email", dataType := "text", nullable := false, primaryKey := true,
            autoIncrement := true }] ∧
      (AlterVerb.addAutoIncrement.apply (obedient .mySql)).outcome next = (.ok (), next) := by
  have hclient : (obedient .mySql).client.Alters (obedient .mySql).dialect fun t _ => t :=
    Client.knowing_alters .mySql
  have hrun : (on members "email").Current fun t _ => t := rfl
  have hplain : Column.Plain { name := "email", dataType := "text" } :=
    ⟨by decide, by decide +kernel, fun expr h => nomatch h⟩
  have husers : IsIdentifier "users" := ⟨_, _, rfl, by decide, by decide⟩
  have hemail : IsIdentifier "email" := ⟨_, _, rfl, by decide, by decide⟩
  have hc : (on members "email").session.Addresses (obedient .mySql).dialect
      { name := "email", dataType := "text" } :=
    ⟨rfl, by decide, fun _ => hplain, husers, hemail⟩
  have hsound : members.Sound (obedient .mySql).dialect "users" :=
    ⟨by decide, fun h => nomatch h⟩
  have hverb : AlterVerb.addAutoIncrement.isConstraint = true := rfl
  obtain ⟨next, hout, -, hcolumns, -, -, hagain⟩ := alter_requested hclient hrun hc hsound hverb
  exact ⟨next, hout, hcolumns, hagain⟩

end AlterSession

end QueryLoom
