import QueryLoom.Proofs.AlterSession.Snapshot
import QueryLoom.Proofs.Identifier

/-!
# Refused verbs of a session

Over a client that never fails, a verb fails only where it is misused. Nearly all of that is found
out before anything is done: the exception is a column whose new specification is refused, for the
column has been chosen by then.
-/

set_option autoImplicit false

namespace QueryLoom

variable {σ : Type} {description : σ → String → Table}

/-- Every statement takes effect, and those about the primary key leave the table its columns. -/
structure Database.Obeyed (db : Database σ) (description : σ → String → Table) : Prop where
  describes : db.client.Describes description
  executes : ∀ sql b s, ((db.client.execute sql b).outcome s).1.isOk = true
  keyDropped : ∀ table s,
    let drop := Alteration.dropPrimaryKeyFor db.dialect table
      (description s table).primaryKeyConstraint
    (description ((db.client.execute (drop.statement table) .empty).outcome s).2 table).names =
      (description s table).names
  keyAdded : ∀ table s, ∀ c ∈ (description s table).columns,
    let add := Alteration.addPrimaryKey c.name
    (description ((db.client.execute (add.statement table) .empty).outcome s).2 table).names =
      (description s table).names

namespace AlterSession

variable {db : Database σ} {run after : SessionRun σ} {e : Error}

/-! ## Misuse -/

theorem existing_error {s : AlterSession} {name : String} (h : s.existing name = .error e) :
    e.isUsage = true := by
  unfold existing at h
  cases hname : Identifier.column name with
  | error e' =>
    rw [hname] at h
    cases h
    exact Identifier.column_error hname
  | ok column =>
    rw [hname] at h
    cases hcolumn : s.snapshot.column? column with
    | some c => simp [hcolumn, bind, Except.bind, pure, Except.pure] at h
    | none =>
      simp only [hcolumn, bind, Except.bind] at h
      cases h
      rfl

theorem activeColumn_error {s : AlterSession} (h : s.activeColumn = .error e) :
    e.isUsage = true := by
  unfold activeColumn at h
  cases hactive : s.active with
  | none =>
    rw [hactive] at h
    cases h
    rfl
  | some name =>
    cases hcolumn : s.snapshot.column? name with
    | some c => simp [hactive, hcolumn] at h
    | none =>
      simp only [hactive, hcolumn] at h
      cases h
      rfl

theorem tableName_error {name : String} (h : db.tableName name = .error e) : e.isUsage = true := by
  rw [Database.tableName] at h
  exact Identifier.table_error h

theorem nameOr_error {name : Option String} {other : String} (h : nameOr name other = .error e) :
    e.isUsage = true := by
  cases name with
  | none => cases h
  | some name => exact Identifier.column_error h

theorem plan_error {s : AlterSession} {v : AlterVerb} (h : plan db s v = .error e) :
    e.isUsage = true := by
  cases v with
  | addColumn name spec =>
    rw [plan] at h
    rcases bind_eq_error.mp h with h | ⟨name, -, h⟩
    · exact Identifier.column_error h
    · rcases bind_eq_error.mp h with h | ⟨spec, -, h⟩
      · exact Identifier.rawFragment_error h
      · split at h
        · cases h
          rfl
        · cases h
  | dropColumn name =>
    rw [plan, map_eq_error] at h
    exact existing_error h
  | modifyColumn name spec =>
    cases spec <;> rw [plan, map_eq_error] at h <;> exact existing_error h
  | addForeignKey refTable refColumn name =>
    rw [plan] at h
    rcases bind_eq_error.mp h with h | ⟨refTable, -, h⟩
    · exact tableName_error h
    · rcases bind_eq_error.mp h with h | ⟨refColumn, -, h⟩
      · exact Identifier.column_error h
      · rcases bind_eq_error.mp h with h | ⟨c, -, h⟩
        · exact activeColumn_error h
        · split at h
          · cases h
          · exact nameOr_error (map_eq_error.mp h)
  | dropForeignKey refTable refColumn name =>
    rw [plan] at h
    rcases bind_eq_error.mp h with h | ⟨refTable, -, h⟩
    · exact tableName_error h
    · rcases bind_eq_error.mp h with h | ⟨refColumn, -, h⟩
      · exact Identifier.column_error h
      · rcases bind_eq_error.mp h with h | ⟨c, -, h⟩
        · exact activeColumn_error h
        · split at h
          · cases h
          · exact nameOr_error (map_eq_error.mp h)
  | _ =>
    rw [plan_of_isConstraint rfl, map_eq_error] at h
    exact activeColumn_error h

/-! ## Steps that fail -/

/-- Where every statement takes effect, a step fails only to refuse, or for want of the active
column. -/
theorem step_error (h : db.Obeyed description) {step : Step}
    (hout : (step.run db).outcome run = (.error e, after)) :
    step = .refuse e ∨
      step = .countUp ∧ after = run ∧ run.session.activeColumn = .error e := by
  cases step with
  | fill column value =>
    have hok := h.executes (backfillStatement run.session.table column)
      (Bindings.empty.insert "backfill" value) run.store.connection
    rw [fill_outcome] at hout
    rcases hcall : (db.client.execute (backfillStatement run.session.table column)
      (Bindings.empty.insert "backfill" value)).outcome run.store.connection with ⟨_ | n, s⟩
    · rw [hcall] at hok
      cases hok
    · rw [hcall] at hout
      cases hout
  | alter a =>
    have hok : ((change db a).outcome run).1.isOk = true := by
      rw [change_isOk h.describes]
      exact h.executes _ _ _
    change (change db a).outcome run = _ at hout
    rw [hout] at hok
    cases hok
  | countUp =>
    rw [countUp_outcome] at hout
    cases hc : run.session.activeColumn with
    | error e' =>
      rw [hc] at hout
      cases hout
      exact Or.inr ⟨rfl, rfl, rfl⟩
    | ok c =>
      have hok : ((change db (.setAutoIncrementFor db.dialect (counting c))).outcome run).1.isOk =
          true := by
        rw [change_isOk h.describes]
        exact h.executes _ _ _
      rw [hc] at hout
      dsimp only at hout
      rw [hout] at hok
      cases hok
  | choose column => cases hout
  | forget column =>
    rw [forget_outcome] at hout
    cases hout
  | refuse e' =>
    cases hout
    exact Or.inl rfl

theorem perform_error (h : db.Obeyed description) {steps : List Step}
    (hout : (perform db steps).outcome run = (.error e, after)) :
    .refuse e ∈ steps ∨ .countUp ∈ steps ∧ e.isUsage = true := by
  induction steps generalizing run with
  | nil => cases hout
  | cons step steps ih =>
    rw [perform_cons_outcome] at hout
    rcases hstep : (step.run db).outcome run with ⟨e' | _, next⟩
    · rw [hstep] at hout
      cases hout
      rcases step_error h hstep with rfl | ⟨rfl, -, hmissing⟩
      · exact Or.inl (by simp)
      · exact Or.inr ⟨by simp, activeColumn_error hmissing⟩
    · rw [hstep] at hout
      rcases ih hout with hrefuse | ⟨hcount, husage⟩
      · exact Or.inl (List.mem_cons_of_mem _ hrefuse)
      · exact Or.inr ⟨List.mem_cons_of_mem _ hcount, husage⟩

theorem perform_ne_error (h : db.Obeyed description) {steps : List Step}
    (hrefuse : .refuse e ∉ steps) (hcount : .countUp ∉ steps) :
    (perform db steps).outcome run ≠ (.error e, after) := by
  intro hout
  rcases perform_error h hout with hmem | ⟨hmem, -⟩
  · exact hrefuse hmem
  · exact hcount hmem

theorem activeColumn_of_mem {s : AlterSession} {name : String} (hactive : s.active = some name)
    (hmem : name ∈ s.snapshot.names) : ∃ c, s.activeColumn = .ok c := by
  have hsome : (s.snapshot.column? name).isSome = true := by
    obtain ⟨c, hc, rfl⟩ := List.mem_map.mp hmem
    rw [Table.column?, List.find?_isSome]
    exact ⟨c, hc, by simp⟩
  obtain ⟨c, hc⟩ := Option.isSome_iff_exists.mp hsome
  exact ⟨c, by simp [activeColumn, hactive, hc]⟩

theorem change_names (h : db.Obeyed description) (hrun : run.Current description) {a : Alteration}
    (hnames : (description ((db.client.execute (a.statement run.session.table) .empty).outcome
      run.store.connection).2 run.session.table).names = (run.described description).names) :
    ∃ next, (change db a).outcome run = (.ok (), next) ∧ Follows description run next ∧
      next.session.snapshot.names = run.session.snapshot.names := by
  obtain ⟨next, hout, hfollows, hsnapshot⟩ :=
    change_succeeds h.describes hrun (h.executes (a.statement run.session.table) .empty _)
  refine ⟨next, hout, hfollows, ?_⟩
  rw [hsnapshot, hnames, show run.session.snapshot = run.described description from hrun]

theorem countUp_isOk (h : db.Obeyed description) {name : String}
    (hactive : run.session.active = some name) (hmem : name ∈ run.session.snapshot.names) :
    ((Step.countUp.run db).outcome run).1.isOk = true := by
  obtain ⟨c, hc⟩ := activeColumn_of_mem hactive hmem
  rw [countUp_outcome, hc]
  dsimp only
  rw [change_isOk h.describes]
  exact h.executes _ _ _

theorem addAutoIncrement_isOk (h : db.Obeyed description) (hrun : run.Current description)
    {c : Column} (hc : run.session.activeColumn = .ok c) :
    ((perform db (AlterVerb.addAutoIncrement.steps db.dialect run.session c)).outcome run).1.isOk =
      true := by
  obtain ⟨hactive, hmem⟩ := activeColumn_ok hc
  have hname : c.name ∈ run.session.snapshot.names := List.mem_map_of_mem hmem
  -- The active column outlives both changes of the key, so it is found again for the last step.
  have hlast : ∀ next, Follows description run next →
      next.session.snapshot.names = run.session.snapshot.names →
      ((Step.countUp.run db).outcome next).1.isOk = true := by
    intro next hfollows hnames
    exact countUp_isOk h (hfollows.active.trans hactive) (hnames ▸ hname)
  have hkeyed : ∀ next, Follows description run next →
      next.session.snapshot.names = run.session.snapshot.names →
      ((perform db [.alter (.addPrimaryKey c.name), .countUp]).outcome next).1.isOk = true := by
    intro next hfollows hnames
    have hstays : c.name ∈ next.session.snapshot.names := hnames ▸ hname
    obtain ⟨d, hd, hdname⟩ := List.mem_map.mp hstays
    rw [show next.session.snapshot = next.described description from hfollows.current] at hd
    have hadded := h.keyAdded _ _ d hd
    rw [hdname] at hadded
    obtain ⟨last, hout, hstill, hnames'⟩ := change_names h hfollows.current hadded
    rw [perform_alter_ok hout, perform_single]
    exact hlast last (hfollows.trans hstill) (hnames'.trans hnames)
  rw [AlterVerb.steps]
  by_cases hkey : c.primaryKey = true
  · rw [if_pos hkey, perform_single]
    exact hlast run ⟨hrun, rfl, rfl⟩ rfl
  · rw [if_neg hkey]
    by_cases hold : run.session.snapshot.primaryKey?.isSome = true
    · rw [if_pos hold]
      have hdropped := h.keyDropped run.session.table run.store.connection
      rw [show description run.store.connection run.session.table = run.session.snapshot from
        hrun.symm] at hdropped
      obtain ⟨next, hout, hfollows, hnames⟩ :=
        change_names (a := keyDrop db.dialect run.session) h hrun (hrun ▸ hdropped)
      rw [perform_alter_ok hout]
      exact hkeyed next hfollows hnames
    · rw [if_neg hold]
      exact hkeyed run ⟨hrun, rfl, rfl⟩ rfl

theorem refuse_not_mem_steps (v : AlterVerb) (d : Dialect) (s : AlterSession) (c : Column) :
    .refuse e ∉ v.steps d s c := by
  intro hmem
  rcases steps_cases v d s c with hall | ⟨value, rest, hsteps, hrest⟩
  · cases hall _ hmem
  · rw [hsteps] at hmem
    rcases List.mem_cons.mp hmem with hfill | hmem
    · cases hfill
    · cases hrest _ hmem

theorem countUp_mem_steps {v : AlterVerb} {d : Dialect} {s : AlterSession} {c : Column}
    (h : .countUp ∈ v.steps d s c) : v = .addAutoIncrement := by
  cases v with
  | addAutoIncrement => rfl
  | addNotNull backfill => cases backfill <;> simp [AlterVerb.steps] at h
  | _ => simp [AlterVerb.steps] at h

theorem refused_modifyColumn (h : db.Obeyed description) {name : String} {spec : Option String}
    {steps : List Step} (hplan : plan db run.session (.modifyColumn name spec) = .ok steps)
    (hout : (perform db steps).outcome run = (.error e, after)) :
    ∃ column, run.session.existing name = .ok column ∧
      spec.map (Identifier.rawFragment "column spec") = some (.error e) ∧
      after = { run with session := { run.session with active := some column } } := by
  cases spec with
  | none =>
    rw [plan] at hplan
    obtain ⟨column, -, rfl⟩ := map_eq_ok.mp hplan
    cases hout
  | some spec =>
    rw [plan] at hplan
    obtain ⟨column, hname, rfl⟩ := map_eq_ok.mp hplan
    cases hspec : Identifier.rawFragment "column spec" spec with
    | ok spec' =>
      rw [hspec] at hout
      exact absurd hout (perform_ne_error h (by simp) (by simp))
    | error e' =>
      rw [hspec] at hout
      cases hout
      exact ⟨column, hname, by rw [Option.map_some, hspec], rfl⟩

/-- Any other verb that has come to a plan fails in one step only, which one verb has. -/
theorem refused_countUp (h : db.Obeyed description) {v : AlterVerb} {steps : List Step}
    (hplan : plan db run.session v = .ok steps) (hmodify : ∀ name spec, v ≠ .modifyColumn name spec)
    (hout : (perform db steps).outcome run = (.error e, after)) :
    e.isUsage = true ∧ v = .addAutoIncrement ∧ ¬ run.Current description := by
  by_cases hdrop : ∃ name, v = .dropColumn name
  · obtain ⟨name, rfl⟩ := hdrop
    rw [plan] at hplan
    obtain ⟨column, -, rfl⟩ := map_eq_ok.mp hplan
    exact absurd hout (perform_ne_error h (by simp) (by simp))
  · rcases plan_cases hplan (fun name hv => hdrop ⟨name, hv⟩) hmodify with
      rfl | ⟨a, rfl⟩ | ⟨c, hc, rfl⟩
    · cases hout
    · exact absurd hout (perform_ne_error h (by simp) (by simp))
    · rcases perform_error h hout with hrefuse | ⟨hcount, husage⟩
      · exact absurd hrefuse (refuse_not_mem_steps v db.dialect run.session c)
      · obtain rfl := countUp_mem_steps hcount
        refine ⟨husage, rfl, fun hrun => ?_⟩
        have hok := addAutoIncrement_isOk h hrun hc
        rw [hout] at hok
        cases hok

/-- Over a client that never fails a verb is only refused as a misuse, and leaves everything as it
was. There are two exceptions. A column whose new specification is refused has been chosen as the
active one; and where another program has altered the table, a column that is to count up may be
gone when the primary key has been changed. -/
theorem refused_apply (h : db.Obeyed description) (v : AlterVerb)
    (hout : (v.apply db).outcome run = (.error e, after)) :
    e.isUsage = true ∧
      (after = run ∨
        (∃ name spec column, v = .modifyColumn name (some spec) ∧
          run.session.existing name = .ok column ∧
          Identifier.rawFragment "column spec" spec = .error e ∧
          after = { run with session := { run.session with active := some column } }) ∨
        v = .addAutoIncrement ∧ ¬ run.Current description) := by
  rw [apply_outcome] at hout
  cases hplan : plan db run.session v with
  | error e' =>
    rw [hplan] at hout
    cases hout
    exact ⟨plan_error hplan, Or.inl rfl⟩
  | ok steps =>
    rw [hplan] at hout
    change (perform db steps).outcome run = _ at hout
    by_cases hmodify : ∃ name spec, v = .modifyColumn name spec
    · obtain ⟨name, spec, rfl⟩ := hmodify
      obtain ⟨column, hname, hspec, hafter⟩ := refused_modifyColumn h hplan hout
      obtain ⟨text, rfl, hrefused⟩ := Option.map_eq_some_iff.mp hspec
      exact ⟨Identifier.rawFragment_error hrefused,
        Or.inr (Or.inl ⟨name, text, column, rfl, hname, hrefused, hafter⟩)⟩
    · obtain ⟨husage, hverb, hstale⟩ :=
        refused_countUp h hplan (fun name spec hv => hmodify ⟨name, spec, hv⟩) hout
      exact ⟨husage, Or.inr (Or.inr ⟨hverb, hstale⟩)⟩

def idle : Database Table := ⟨.knowing fun _ t => some t, {}⟩

theorem idle_obeyed : idle.Obeyed fun t _ => t := by
  have hexecute : ∀ sql b t, (idle.client.execute sql b).outcome t = (.ok 0, t) :=
    Client.knowing_execute fun _ t => some t
  constructor
  · have hdescribes : (Client.knowing fun _ t => some t).Describes fun t _ => t :=
      Client.knowing_describes fun _ _ _ _ hu => (Option.some.inj hu).symm
    exact hdescribes
  · intro sql b t
    rw [hexecute]
    rfl
  · intro table t
    dsimp only
    rw [hexecute]
  · intro table t c _
    dsimp only
    rw [hexecute]

def chosen : SessionRun Table := ⟨⟨"users", members, some "email"⟩, ⟨members, none⟩⟩

/-- The verb after a refused one acts on another column than it would have acted on. -/
theorem refused_choice :
    ∃ e after, ((AlterVerb.modifyColumn "id" (some "int; drop")).apply idle).outcome chosen =
        (.error e, after) ∧ e.isUsage = true ∧
      (chosen.session.activeColumn.map Column.name).toOption = some "email" ∧
      (after.session.activeColumn.map Column.name).toOption = some "id" := by
  refine ⟨_, _, rfl, ?_, rfl, rfl⟩
  have hout : ((AlterVerb.modifyColumn "id" (some "int; drop")).apply idle).outcome chosen = _ :=
    rfl
  exact (refused_apply idle_obeyed (.modifyColumn "id" (some "int; drop")) hout).1

end AlterSession

end QueryLoom
