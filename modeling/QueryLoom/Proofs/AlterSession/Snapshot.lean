import QueryLoom.Proofs.AlterSession.Plan

/-!
# Snapshots

The snapshot of a session is what the server says of the table: from the start on, and again after
every verb, whichever of its statements failed. So the active column, once it is chosen among the
columns of the snapshot, stays one of them unless something else than the verb for it drops it.
-/

set_option autoImplicit false

namespace QueryLoom

variable {σ : Type} {description : σ → String → Table}

def Table.names (t : Table) : List String := t.columns.map Column.name

theorem Table.mem_names_of_column? {t : Table} {name : String} {c : Column}
    (h : t.column? name = some c) : c ∈ t.columns ∧ c.name = name := by
  refine ⟨List.mem_of_find?_eq_some h, ?_⟩
  simpa using List.find?_some h

/-- What a server has to do with its tables: the client can always tell what it says of a table,
and what it says changes only with a statement that takes effect. Values in the rows are no part of
it. -/
structure Client.Describes (client : Client σ) (description : σ → String → Table) : Prop where
  tells : ∀ table s,
    ((client.describeTable table).outcome s).1 = .ok (description s table)
  telling : ∀ table s, description ((client.describeTable table).outcome s).2 = description s
  failed : ∀ sql b s, ((client.execute sql b).outcome s).1.isOk = false →
    description ((client.execute sql b).outcome s).2 = description s
  filled : ∀ table s, ∀ c ∈ (description s table).columns, ∀ b,
    description ((client.execute (AlterSession.backfillStatement table c.name) b).outcome s).2 =
      description s

def SessionRun.described (description : σ → String → Table) (run : SessionRun σ) : Table :=
  description run.store.connection run.session.table

def SessionRun.Current (description : σ → String → Table) (run : SessionRun σ) : Prop :=
  run.session.snapshot = run.described description

namespace AlterVerb

def after (db : Database σ) (v : AlterVerb) (run : SessionRun σ) : SessionRun σ :=
  ((v.apply db).outcome run).2

end AlterVerb

namespace AlterSession

def runAll (db : Database σ) (run : SessionRun σ) : List AlterVerb → SessionRun σ
  | [] => run
  | v :: vs => runAll db (v.after db run) vs

/-! ## Steps -/

section

variable {db : Database σ} {run : SessionRun σ}

theorem activeColumn_ok {s : AlterSession} {c : Column} (h : s.activeColumn = .ok c) :
    s.active = some c.name ∧ c ∈ s.snapshot.columns := by
  unfold activeColumn at h
  cases hactive : s.active with
  | none => simp [hactive] at h
  | some name =>
    cases hcolumn : s.snapshot.column? name with
    | none => simp [hactive, hcolumn] at h
    | some d =>
      obtain rfl : d = c := by simpa [hactive, hcolumn] using h
      obtain ⟨hmem, hname⟩ := Table.mem_names_of_column? hcolumn
      exact ⟨by rw [hname], hmem⟩

theorem existing_ok {s : AlterSession} {name column : String} (h : s.existing name = .ok column) :
    Identifier.column name = .ok column ∧ column ∈ s.snapshot.names := by
  unfold existing at h
  cases hname : Identifier.column name with
  | error e => simp [hname, bind, Except.bind] at h
  | ok n =>
    cases hcolumn : s.snapshot.column? n with
    | none => simp [hname, hcolumn, bind, Except.bind, throw, throwThe, MonadExceptOf.throw] at h
    | some c =>
      obtain rfl : n = column := by
        simpa [hname, hcolumn, bind, Except.bind, pure, Except.pure] using h
      obtain ⟨hmem, hc⟩ := Table.mem_names_of_column? hcolumn
      exact ⟨rfl, hc ▸ List.mem_map_of_mem hmem⟩

/-- What a step leaves that chooses no column: a session on the same table with the same active
column, and a snapshot of what the server says by then. -/
structure Follows (description : σ → String → Table) (run after : SessionRun σ) : Prop where
  current : after.Current description
  table : after.session.table = run.session.table
  active : after.session.active = run.session.active

theorem Follows.trans {next last : SessionRun σ} (h : Follows description run next)
    (h' : Follows description next last) : Follows description run last :=
  ⟨h'.current, h'.table.trans h.table, h'.active.trans h.active⟩

theorem change_follows (hclient : db.client.Describes description) (hrun : run.Current description)
    (a : Alteration) : Follows description run ((change db a).outcome run).2 := by
  have hfailed := hclient.failed (a.statement run.session.table) .empty run.store.connection
  rw [change_outcome]
  rcases h : (db.client.execute (a.statement run.session.table) .empty).outcome
    run.store.connection with ⟨_ | n, s⟩
  · rw [h] at hfailed
    exact ⟨hrun.trans (congrFun (hfailed rfl).symm _), rfl, rfl⟩
  · have htells := hclient.tells run.session.table s
    have htelling := hclient.telling run.session.table s
    dsimp only
    rcases h : (db.client.describeTable run.session.table).outcome s with ⟨result, t⟩
    rw [h] at htells htelling
    obtain rfl : result = .ok (description s run.session.table) := htells
    exact ⟨(congrFun htelling _).symm, rfl, rfl⟩

theorem change_described (hclient : db.client.Describes description) (a : Alteration) :
    ((change db a).outcome run).2.described description =
      description ((db.client.execute (a.statement run.session.table) .empty).outcome
        run.store.connection).2 run.session.table := by
  rw [change_outcome]
  rcases (db.client.execute (a.statement run.session.table) .empty).outcome run.store.connection
    with ⟨_ | n, s⟩
  · rfl
  · have htelling := hclient.telling run.session.table s
    dsimp only
    rcases h : (db.client.describeTable run.session.table).outcome s with ⟨_ | snapshot, t⟩ <;>
      rw [h] at htelling <;> exact congrFun htelling _

theorem change_isOk (hclient : db.client.Describes description) (a : Alteration) :
    ((change db a).outcome run).1.isOk =
      ((db.client.execute (a.statement run.session.table) .empty).outcome
        run.store.connection).1.isOk := by
  rw [change_outcome]
  rcases (db.client.execute (a.statement run.session.table) .empty).outcome run.store.connection
    with ⟨_ | n, s⟩
  · rfl
  · have htells := hclient.tells run.session.table s
    dsimp only
    rcases h : (db.client.describeTable run.session.table).outcome s with ⟨result, t⟩
    rw [h] at htells
    obtain rfl : result = .ok (description s run.session.table) := htells
    rfl

theorem change_succeeds (hclient : db.client.Describes description) (hrun : run.Current description)
    {a : Alteration} (hok : ((db.client.execute (a.statement run.session.table) .empty).outcome
      run.store.connection).1.isOk = true) :
    ∃ next, (change db a).outcome run = (.ok (), next) ∧ Follows description run next ∧
      next.session.snapshot = description ((db.client.execute (a.statement run.session.table)
        .empty).outcome run.store.connection).2 run.session.table := by
  have hfollows := change_follows hclient hrun a
  have hdescribed : ((change db a).outcome run).2.described description = _ :=
    change_described hclient a
  rw [← change_isOk hclient] at hok
  rcases hout : (change db a).outcome run with ⟨_ | _, next⟩
  · rw [hout] at hok
    cases hok
  · rw [hout] at hfollows hdescribed
    exact ⟨next, rfl, hfollows, hfollows.current.trans hdescribed⟩

theorem change_failed (hclient : db.client.Describes description) {a : Alteration}
    (hfails : ((change db a).outcome run).1.isOk = false) :
    ((change db a).outcome run).2.described description = run.described description := by
  rw [change_isOk hclient] at hfails
  rw [change_described hclient]
  exact congrFun (hclient.failed _ _ _ hfails) _

theorem fill_follows (hclient : db.client.Describes description) (hrun : run.Current description)
    {c : Column} (hc : c ∈ run.session.snapshot.columns) (value : Value) :
    Follows description run (((Step.fill c.name value).run db).outcome run).2 := by
  have hmem : c ∈ (description run.store.connection run.session.table).columns := by
    rw [hrun] at hc
    exact hc
  have hfilled := hclient.filled _ _ c hmem (Bindings.empty.insert "backfill" value)
  rw [fill_outcome]
  rcases h : (db.client.execute (backfillStatement run.session.table c.name)
    (Bindings.empty.insert "backfill" value)).outcome run.store.connection with ⟨_ | n, s⟩ <;>
    rw [h] at hfilled <;> exact ⟨hrun.trans (congrFun hfilled.symm _), rfl, rfl⟩

def Step.isChange : Step → Bool
  | .alter _ | .countUp => true
  | _ => false

theorem step_follows (hclient : db.client.Describes description) (hrun : run.Current description)
    {step : Step} (hstep : step.isChange = true) :
    Follows description run ((step.run db).outcome run).2 := by
  cases step with
  | alter a => exact change_follows hclient hrun a
  | countUp =>
    rw [countUp_outcome]
    cases run.session.activeColumn with
    | error e => exact ⟨hrun, rfl, rfl⟩
    | ok c => exact change_follows hclient hrun _
  | _ => cases hstep

theorem perform_follows (hclient : db.client.Describes description)
    (hrun : run.Current description) {steps : List Step}
    (hsteps : ∀ step ∈ steps, step.isChange = true) :
    Follows description run ((perform db steps).outcome run).2 := by
  induction steps generalizing run with
  | nil => exact ⟨hrun, rfl, rfl⟩
  | cons step steps ih =>
    have hstep := step_follows hclient hrun (hsteps step (by simp))
    rw [perform_cons_outcome]
    rcases h : (step.run db).outcome run with ⟨_ | _, next⟩
    · rw [h] at hstep
      exact hstep
    · rw [h] at hstep
      exact hstep.trans (ih hstep.current fun s hs => hsteps s (List.mem_cons_of_mem step hs))

/-! ## Verbs -/

/-- Apart from the verbs that choose or drop a column, a verb alters the table at most once, or goes
through the steps for the active column. -/
theorem plan_cases {s : AlterSession} {v : AlterVerb} {steps : List Step}
    (h : plan db s v = .ok steps) (hdrop : ∀ name, v ≠ .dropColumn name)
    (hmodify : ∀ name spec, v ≠ .modifyColumn name spec) :
    steps = [] ∨ (∃ a, steps = [.alter a]) ∨
      ∃ c, s.activeColumn = .ok c ∧ steps = v.steps db.dialect s c := by
  cases v with
  | dropColumn name => exact absurd rfl (hdrop name)
  | modifyColumn name spec => exact absurd rfl (hmodify name spec)
  | addColumn name spec =>
    rw [plan] at h
    obtain ⟨name, -, h⟩ := bind_eq_ok.mp h
    obtain ⟨spec, -, h⟩ := bind_eq_ok.mp h
    by_cases hold : (s.snapshot.column? name).isSome = true
    · rw [if_pos hold] at h
      cases h
    · rw [if_neg hold] at h
      cases h
      exact Or.inr (Or.inl ⟨_, rfl⟩)
  | addForeignKey refTable refColumn name =>
    rw [plan] at h
    obtain ⟨refTable, -, h⟩ := bind_eq_ok.mp h
    obtain ⟨refColumn, -, h⟩ := bind_eq_ok.mp h
    obtain ⟨c, -, h⟩ := bind_eq_ok.mp h
    by_cases hrefers : (refersTo c refTable refColumn).isSome = true
    · rw [if_pos hrefers] at h
      cases h
      exact Or.inl rfl
    · rw [if_neg hrefers] at h
      obtain ⟨constraint, -, rfl⟩ := map_eq_ok.mp h
      exact Or.inr (Or.inl ⟨_, rfl⟩)
  | dropForeignKey refTable refColumn name =>
    rw [plan] at h
    obtain ⟨refTable, -, h⟩ := bind_eq_ok.mp h
    obtain ⟨refColumn, -, h⟩ := bind_eq_ok.mp h
    obtain ⟨c, -, h⟩ := bind_eq_ok.mp h
    cases hrefers : refersTo c refTable refColumn with
    | none =>
      rw [hrefers] at h
      cases h
      exact Or.inl rfl
    | some key =>
      rw [hrefers] at h
      obtain ⟨constraint, -, rfl⟩ := map_eq_ok.mp h
      exact Or.inr (Or.inl ⟨_, rfl⟩)
  | _ =>
    rw [plan_of_isConstraint rfl] at h
    obtain ⟨c, hc, rfl⟩ := map_eq_ok.mp h
    split
    · exact Or.inl rfl
    · exact Or.inr (Or.inr ⟨c, hc, rfl⟩)

theorem steps_cases (v : AlterVerb) (d : Dialect) (s : AlterSession) (c : Column) :
    (∀ step ∈ v.steps d s c, step.isChange = true) ∨ ∃ value rest,
      v.steps d s c = .fill c.name value :: rest ∧ ∀ step ∈ rest, step.isChange = true := by
  cases v with
  | addNotNull backfill =>
    cases backfill with
    | none => simp [AlterVerb.steps, Step.isChange]
    | some value => exact Or.inr ⟨value, _, rfl, by simp [Step.isChange]⟩
  | addAutoIncrement =>
    left
    rw [AlterVerb.steps]
    split
    · simp [Step.isChange]
    · split <;> simp [Step.isChange]
  | _ => simp [AlterVerb.steps, Step.isChange]

theorem after_eq (db : Database σ) (v : AlterVerb) (run : SessionRun σ) :
    v.after db run = (performed db (plan db run.session v) run).2 :=
  congrArg Prod.snd (apply_outcome db v run)

theorem after_follows (hclient : db.client.Describes description)
    (hrun : run.Current description) {v : AlterVerb} (hdrop : ∀ name, v ≠ .dropColumn name)
    (hmodify : ∀ name spec, v ≠ .modifyColumn name spec) :
    Follows description run (v.after db run) := by
  rw [after_eq]
  cases hplan : plan db run.session v with
  | error e => exact ⟨hrun, rfl, rfl⟩
  | ok steps =>
    rcases plan_cases hplan hdrop hmodify with rfl | ⟨a, rfl⟩ | ⟨c, hc, rfl⟩
    · exact ⟨hrun, rfl, rfl⟩
    · exact perform_follows hclient hrun (by simp [Step.isChange])
    · rcases steps_cases v db.dialect run.session c with hall | ⟨value, rest, hsteps, hrest⟩
      · exact perform_follows hclient hrun hall
      · have hfill := fill_follows hclient hrun (activeColumn_ok hc).2 value
        rw [performed, hsteps, perform_cons_outcome]
        rcases h : ((Step.fill c.name value).run db).outcome run with ⟨_ | _, next⟩
        · rw [h] at hfill
          exact hfill
        · rw [h] at hfill
          exact hfill.trans (perform_follows hclient hfill.current hrest)

theorem after_modifyColumn (hclient : db.client.Describes description)
    (hrun : run.Current description) (name : String) (spec : Option String) :
    ∃ active, Follows description { run with session := { run.session with active } }
        ((AlterVerb.modifyColumn name spec).after db run) ∧
      (active = run.session.active ∨
        ∃ column ∈ run.session.snapshot.names, active = some column) := by
  rw [after_eq]
  cases hname : run.session.existing name with
  | error e =>
    refine ⟨run.session.active, ?_, Or.inl rfl⟩
    cases spec <;> rw [plan, hname] <;> exact ⟨hrun, rfl, rfl⟩
  | ok column =>
    refine ⟨some column, ?_, Or.inr ⟨column, (existing_ok hname).2, rfl⟩⟩
    cases spec with
    | none =>
      rw [plan, hname]
      exact ⟨hrun, rfl, rfl⟩
    | some spec =>
      rw [plan, hname]
      simp only [Except.map, performed]
      -- The column has been chosen by now, even if its specification is refused.
      cases Identifier.rawFragment "column spec" spec with
      | error e => exact ⟨hrun, rfl, rfl⟩
      | ok spec =>
        rw [perform_cons_outcome, perform_single]
        have hchosen : { run with session := { run.session with active := some column } }.Current
            description := hrun
        exact change_follows hclient hchosen (.changeTypeFor db.dialect column spec)

theorem after_dropColumn (hclient : db.client.Describes description)
    (hrun : run.Current description) (name : String) :
    let after := (AlterVerb.dropColumn name).after db run
    after.Current description ∧ after.session.table = run.session.table ∧
      (after.session.active = run.session.active ∧
          after.described description = run.described description ∨
        ∃ column, Identifier.column name = .ok column ∧ after.session.active =
          if run.session.active = some column then none else run.session.active) := by
  intro after
  have hafter : after = _ := after_eq db (.dropColumn name) run
  rw [plan] at hafter
  cases hname : run.session.existing name with
  | error e =>
    rw [hname] at hafter
    rw [hafter]
    exact ⟨hrun, rfl, Or.inl ⟨rfl, rfl⟩⟩
  | ok column =>
    rw [hname] at hafter
    simp only [Except.map, performed, perform_cons_outcome, perform_single, Step.run] at hafter
    have hfollows := change_follows hclient hrun (.dropColumn column)
    have hfails : ((change db (.dropColumn column)).outcome run).1.isOk = false →
        ((change db (.dropColumn column)).outcome run).2.described description =
          run.described description := change_failed hclient
    rcases h : (change db (.dropColumn column)).outcome run with ⟨_ | _, next⟩
    · rw [h] at hafter hfollows hfails
      rw [hafter]
      exact ⟨hfollows.current, hfollows.table, Or.inl ⟨hfollows.active, hfails rfl⟩⟩
    · rw [h] at hafter hfollows
      have hforget := forget_outcome db column next
      simp only [Step.run] at hforget
      dsimp only at hafter
      rw [hforget] at hafter
      refine ⟨?_, ?_, Or.inr ⟨column, (existing_ok hname).1, ?_⟩⟩
      · rw [hafter]
        split <;> exact hfollows.current
      · rw [hafter]
        split <;> exact hfollows.table
      · rw [hafter, ← hfollows.active]
        split <;> rfl

/-! ## Runs -/

theorem after_current (hclient : db.client.Describes description) (hrun : run.Current description)
    (v : AlterVerb) :
    (v.after db run).Current description ∧ (v.after db run).session.table = run.session.table := by
  by_cases hdrop : ∃ name, v = .dropColumn name
  · obtain ⟨name, rfl⟩ := hdrop
    obtain ⟨hcurrent, htable, -⟩ := after_dropColumn hclient hrun name
    exact ⟨hcurrent, htable⟩
  · by_cases hmodify : ∃ name spec, v = .modifyColumn name spec
    · obtain ⟨name, spec, rfl⟩ := hmodify
      obtain ⟨active, hfollows, -⟩ := after_modifyColumn hclient hrun name spec
      exact ⟨hfollows.current, hfollows.table⟩
    · have hfollows := after_follows hclient hrun (fun name h => hdrop ⟨name, h⟩)
        fun name spec h => hmodify ⟨name, spec, h⟩
      exact ⟨hfollows.current, hfollows.table⟩

theorem runAll_current (hclient : db.client.Describes description)
    (hrun : run.Current description) (verbs : List AlterVerb) :
    (runAll db run verbs).Current description := by
  induction verbs generalizing run with
  | nil => exact hrun
  | cons v verbs ih => exact ih (after_current hclient hrun v).1

def DropsByVerb (description : σ → String → Table) (db : Database σ) :
    SessionRun σ → List AlterVerb → Prop
  | _, [] => True
  | run, v :: vs =>
    (∀ column ∈ (run.described description).names,
      column ∈ ((v.after db run).described description).names ∨
        ∃ name, v = .dropColumn name ∧ Identifier.column name = .ok column) ∧
      DropsByVerb description db (v.after db run) vs

/-- A verb leaves a column active that was there before, and that it did not drop. -/
theorem after_active (hclient : db.client.Describes description) (hrun : run.Current description)
    (hactive : ∀ column, run.session.active = some column → column ∈ run.session.snapshot.names)
    (v : AlterVerb) {column : String} (h : (v.after db run).session.active = some column) :
    column ∈ (run.described description).names ∧
      ((∃ name, v = .dropColumn name ∧ Identifier.column name = .ok column) →
        column ∈ ((v.after db run).described description).names) := by
  have hnames : run.session.snapshot = run.described description := hrun
  rw [hnames] at hactive
  by_cases hdrop : ∃ name, v = .dropColumn name
  · obtain ⟨name, rfl⟩ := hdrop
    obtain ⟨-, -, ⟨hsame, hdescribed⟩ | ⟨dropped, hname, hleft⟩⟩ :=
      after_dropColumn hclient hrun name
    · rw [hsame] at h
      rw [hdescribed]
      exact ⟨hactive column h, fun _ => hactive column h⟩
    · rw [hleft] at h
      by_cases hgone : run.session.active = some dropped
      · rw [if_pos hgone] at h
        cases h
      · rw [if_neg hgone] at h
        refine ⟨hactive column h, ?_⟩
        rintro ⟨name', hverb, hname'⟩
        cases hverb
        rw [hname] at hname'
        cases hname'
        exact absurd h hgone
  · refine ⟨?_, fun ⟨name, hname, _⟩ => absurd ⟨name, hname⟩ hdrop⟩
    by_cases hmodify : ∃ name spec, v = .modifyColumn name spec
    · obtain ⟨name, spec, rfl⟩ := hmodify
      obtain ⟨active, hfollows, hsame | ⟨chosen, hmem, hchosen⟩⟩ :=
        after_modifyColumn hclient hrun name spec
      · rw [hfollows.active, hsame] at h
        exact hactive column h
      · rw [hfollows.active, hchosen] at h
        cases h
        rw [← hnames]
        exact hmem
    · have hfollows := after_follows hclient hrun (fun name h => hdrop ⟨name, h⟩)
        fun name spec h => hmodify ⟨name, spec, h⟩
      rw [hfollows.active] at h
      exact hactive column h

theorem runAll_active (hclient : db.client.Describes description) (hrun : run.Current description)
    (hactive : ∀ column, run.session.active = some column → column ∈ run.session.snapshot.names)
    {verbs : List AlterVerb} (hdrops : DropsByVerb description db run verbs) :
    ∀ column, (runAll db run verbs).session.active = some column →
      column ∈ (runAll db run verbs).session.snapshot.names := by
  induction verbs generalizing run with
  | nil => exact hactive
  | cons v verbs ih =>
    have hafter := (after_current hclient hrun v).1
    apply ih hafter _ hdrops.2
    intro column h
    obtain ⟨hmem, hdropped⟩ := after_active hclient hrun hactive v h
    rw [show (v.after db run).session.snapshot = (v.after db run).described description from hafter]
    rcases hdrops.1 column hmem with hstays | hgoes
    · exact hstays
    · exact hdropped hgoes

end

/-- A session begins on every table whose name is accepted, with what the server says of it; and
after every list of verbs, with any of their statements failing, its snapshot is what the server
says by then. If columns go only where a verb drops them, the active column is one of them. -/
theorem alter_snapshot {db : Database σ} (hclient : db.client.Describes description)
    (name : String) (store : Store σ) :
    ∃ opened, (db.alter name).outcome store =
        ((db.tableName name).map fun table =>
          ⟨table, description opened.connection table, none⟩, opened) ∧
      ∀ table, db.tableName name = .ok table → ∀ verbs : List AlterVerb,
        let begun : SessionRun σ := ⟨⟨table, description opened.connection table, none⟩, opened⟩
        let run := runAll db begun verbs
        run.session.snapshot = description run.store.connection run.session.table ∧
          (DropsByVerb description db begun verbs →
            ∀ column, run.session.active = some column → column ∈ run.session.snapshot.names) := by
  cases hname : db.tableName name with
  | error e =>
    refine ⟨store, ?_, fun table h => nomatch h⟩
    rw [Database.alter, hname]
    rfl
  | ok table =>
    have htells := hclient.tells table store.connection
    have htelling := hclient.telling table store.connection
    refine ⟨⟨((db.client.describeTable table).outcome store.connection).2, store.cache⟩, ?_, ?_⟩
    · rw [Database.alter, hname, Attempt.outcome_bind, Attempt.outcome_ofExcept]
      dsimp only [begin]
      rw [Attempt.outcome_bind, Database.outcome_onConnection, htells, htelling]
      rfl
    · intro table' htable verbs begun run
      have hcurrent : begun.Current description := rfl
      exact ⟨runAll_current hclient hcurrent verbs,
        runAll_active hclient hcurrent fun column h => nomatch h⟩

end AlterSession

def Client.knowing (effect : String → Table → Option Table) : Client Table where
  fetch _ _ := throw (.query none)
  execute sql _ := do
    match effect sql (← get) with
    | some table =>
      set table
      return 0
    | none => throw (.query (some "42601"))
  describeTable _ := get

theorem Client.knowing_execute (effect : String → Table → Option Table) (sql : String)
    (b : Bindings) (t : Table) :
    ((Client.knowing effect).execute sql b).outcome t = match effect sql t with
      | some table => (.ok 0, table)
      | none => (.error (.query (some "42601")), t) := by
  change Attempt.outcome (get >>= _) t = _
  rw [Attempt.outcome_bind, Attempt.outcome_get]
  dsimp only
  cases effect sql t <;> rfl

theorem Client.knowing_describes {effect : String → Table → Option Table}
    (hfilled : ∀ table column t, ∀ u ∈ effect (AlterSession.backfillStatement table column) t,
      u = t) :
    (Client.knowing effect).Describes fun t _ => t := by
  constructor
  · intro table t
    rfl
  · intro table t
    rfl
  · intro sql b t hfails
    rw [knowing_execute] at hfails ⊢
    cases h : effect sql t with
    | none => rfl
    | some u =>
      rw [h] at hfails
      cases hfails
  · intro table t c hc b
    rw [knowing_execute]
    cases h : effect (AlterSession.backfillStatement table c.name) t with
    | none => rfl
    | some u => exact funext fun _ => hfilled table c.name t u h

namespace AlterSession

theorem backfillStatement_ne (table column other : String) (a : Alteration) :
    backfillStatement table column ≠ a.statement other := by
  intro h
  unfold backfillStatement Alteration.statement at h
  simp only [String.append_assoc] at h
  have hhead := congrArg (fun s => s.toList.head?) h
  simp at hhead

def members : Table :=
  (Table.mk "users" [] none).addColumn (Column.asPrimaryKey { name := "id", dataType := "int" })
    |>.addColumn { name := "email", dataType := "text" }

def brittle (sql : String) (t : Table) : Option Table :=
  if sql = (Alteration.dropColumn "email").statement "users" then
    some { t with columns := t.columns.filter fun c => c.name ≠ "email" }
  else if sql = backfillStatement "users" "email" then some t
  else none

def brittleServer : Database Table := ⟨.knowing brittle, {}⟩

def begun : SessionRun Table := ⟨⟨"users", members, none⟩, ⟨members, none⟩⟩

def halted : List AlterVerb := [.modifyColumn "email" none, .addNotNull (some (.text "?"))]

/-- The rows are filled, and then the alteration fails. -/
theorem brittle_snapshot :
    (brittleServer.alter "users").outcome ⟨members, none⟩ = (.ok begun.session, begun.store) ∧
      ((AlterVerb.addNotNull (some (.text "?"))).apply brittleServer).outcome
          (runAll brittleServer begun [.modifyColumn "email" none]) =
        (.error (.query (some "42601")), runAll brittleServer begun halted) ∧
      (runAll brittleServer begun halted).session.active = some "email" ∧
      "email" ∈ (runAll brittleServer begun halted).session.snapshot.names ∧
      (runAll brittleServer begun (halted ++ [.dropColumn "email"])).session.snapshot =
        (runAll brittleServer begun (halted ++ [.dropColumn "email"])).store.connection := by
  have hclient : brittleServer.client.Describes fun t _ => t := by
    apply Client.knowing_describes
    intro table column t u hu
    rw [brittle, if_neg (backfillStatement_ne _ _ _ _)] at hu
    split at hu
    · exact (Option.some.inj hu).symm
    · cases hu
  have hbegun : (brittleServer.alter "users").outcome ⟨members, none⟩ =
      (.ok begun.session, begun.store) := rfl
  obtain ⟨opened, hout, hruns⟩ := alter_snapshot hclient "users" ⟨members, none⟩
  obtain rfl : begun.store = opened := congrArg Prod.snd (hbegun.symm.trans hout)
  obtain ⟨-, hactive⟩ := hruns "users" rfl halted
  have hdrops : DropsByVerb (fun t _ => t) brittleServer begun halted :=
    ⟨fun _ h => Or.inl h, fun _ h => Or.inl h, trivial⟩
  obtain ⟨hdropped, -⟩ := hruns "users" rfl (halted ++ [AlterVerb.dropColumn "email"])
  exact ⟨hbegun, rfl, rfl, hactive hdrops "email" rfl, hdropped⟩

end AlterSession

end QueryLoom
