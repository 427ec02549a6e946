import QueryLoom.Proofs.AlterSession.Steps
import QueryLoom.Proofs.Database.Freshness

/-!
# The plans of alter verbs

A verb does what its plan says: it is refused with the plan, or goes through the steps up to the
first one that fails. All that runs a statement or touches the session is in the steps.
-/

set_option autoImplicit false

namespace QueryLoom

namespace AlterSession

variable {σ : Type}

theorem plan_of_isConstraint {v : AlterVerb} (hv : v.isConstraint = true) (db : Database σ)
    (s : AlterSession) :
    plan db s v = s.activeColumn.map fun c => if v.isMet c then [] else v.steps db.dialect s c := by
  cases v with
  | addColumn | dropColumn | modifyColumn | addForeignKey | dropForeignKey => cases hv
  | _ => rfl

/-! ## Outcomes of the steps -/

@[simp] theorem session_outcome (run : SessionRun σ) :
    session.outcome run = (.ok run.session, run) := rfl

@[simp] theorem current_outcome (run : SessionRun σ) :
    current.outcome run = (run.session.activeColumn, run) := by
  rw [current, Attempt.outcome_bind, session_outcome]
  exact Attempt.outcome_ofExcept _ _

@[simp] theorem setActive_outcome (name : Option String) (run : SessionRun σ) :
    (setActive name).outcome run =
      (.ok (), { run with session := { run.session with active := name } }) := rfl

def written (run : SessionRun σ) (s : σ) : SessionRun σ :=
  { run with store := ⟨s, run.store.cache.map fun c => (c.clear run.session.table).2⟩ }

def unwritten (run : SessionRun σ) (s : σ) : SessionRun σ :=
  { run with store := ⟨s, run.store.cache⟩ }

theorem execute_outcome (db : Database σ) (sql : String) (b : Bindings) (run : SessionRun σ) :
    (onStore (db.executeOn run.session.table sql b)).outcome run =
      match (db.client.execute sql b).outcome run.store.connection with
      | (.ok n, s) => (.ok n, written run s)
      | (.error e, s) => (.error e, unwritten run s) := by
  have hcommit := Database.commit_outcome run.session.table (db.client.execute sql b) run.store
  change ((db.executeOn run.session.table sql b).outcome run.store) = _ at hcommit
  rw [onStore, Attempt.outcome_within, hcommit]
  rcases (db.client.execute sql b).outcome run.store.connection with ⟨_ | _, _⟩ <;> rfl

theorem change_outcome (db : Database σ) (a : Alteration) (run : SessionRun σ) :
    (change db a).outcome run =
      match (db.client.execute (a.statement run.session.table) .empty).outcome
          run.store.connection with
      | (.error e, s) => (.error e, unwritten run s)
      | (.ok _, s) => match (db.client.describeTable run.session.table).outcome s with
        | (.error e, t) => (.error e, written run t)
        | (.ok snapshot, t) =>
          (.ok (), { written run t with session := { run.session with snapshot } }) := by
  unfold change
  simp only [Attempt.outcome_bind, session_outcome, execute_outcome]
  rcases (db.client.execute (a.statement run.session.table) .empty).outcome run.store.connection
    with ⟨_ | _, s⟩
  · rfl
  · simp only [onStore, Attempt.outcome_within, Database.outcome_onConnection, written]
    rcases (db.client.describeTable run.session.table).outcome s with ⟨_ | _, t⟩ <;> rfl

theorem fill_outcome (db : Database σ) (column : String) (value : Value) (run : SessionRun σ) :
    ((Step.fill column value).run db).outcome run =
      match (db.client.execute (backfillStatement run.session.table column)
          (Bindings.empty.insert "backfill" value)).outcome run.store.connection with
      | (.ok _, s) => (.ok (), written run s)
      | (.error e, s) => (.error e, unwritten run s) := by
  simp only [Step.run, Attempt.outcome_bind, session_outcome]
  rw [execute_outcome]
  rcases (db.client.execute (backfillStatement run.session.table column)
    (Bindings.empty.insert "backfill" value)).outcome run.store.connection with ⟨_ | _, _⟩ <;> rfl

theorem countUp_outcome (db : Database σ) (run : SessionRun σ) :
    (Step.countUp.run db).outcome run = match run.session.activeColumn with
      | .ok c => (change db (.setAutoIncrementFor db.dialect (counting c))).outcome run
      | .error e => (.error e, run) := by
  rw [Step.run, Attempt.outcome_bind, current_outcome]
  cases run.session.activeColumn <;> rfl

theorem forget_outcome (db : Database σ) (column : String) (run : SessionRun σ) :
    ((Step.forget column).run db).outcome run =
      (.ok (), if run.session.active = some column then
        { run with session := { run.session with active := none } } else run) := by
  rw [Step.run, Attempt.outcome_bind, session_outcome]
  by_cases h : run.session.active = some column
  · simp only [h, if_true]
    rfl
  · simp only [h, if_false]
    rfl

theorem perform_cons_outcome (db : Database σ) (step : Step) (steps : List Step)
    (run : SessionRun σ) :
    (perform db (step :: steps)).outcome run = match (step.run db).outcome run with
      | (.ok _, after) => (perform db steps).outcome after
      | (.error e, after) => (.error e, after) := by
  rw [perform, Attempt.outcome_bind]
  rcases (step.run db).outcome run with ⟨_ | _, _⟩ <;> rfl

theorem perform_cons_ok {db : Database σ} {step : Step} {run next : SessionRun σ}
    (hstep : (step.run db).outcome run = (.ok (), next)) (steps : List Step) :
    (perform db (step :: steps)).outcome run = (perform db steps).outcome next := by
  rw [perform_cons_outcome, hstep]

theorem perform_alter_ok {db : Database σ} {a : Alteration} {run next : SessionRun σ}
    (hchange : (change db a).outcome run = (.ok (), next)) (steps : List Step) :
    (perform db (.alter a :: steps)).outcome run = (perform db steps).outcome next := by
  rw [perform_cons_ok]
  exact hchange

@[simp] theorem perform_single (db : Database σ) (step : Step) :
    perform db [step] = step.run db := by
  apply Attempt.ext_outcome
  intro run
  rw [perform_cons_outcome]
  rcases (step.run db).outcome run with ⟨_ | _, _⟩ <;> rfl

def performed (db : Database σ) (steps : Except Error (List Step)) (run : SessionRun σ) :
    Except Error Unit × SessionRun σ :=
  match steps with
  | .ok steps => (perform db steps).outcome run
  | .error e => (.error e, run)

/-- A verb that asks something of the active column does nothing if the column is so. -/
theorem outcome_current_bind {db : Database σ} {f : Column → Attempt (SessionRun σ) Unit}
    {met : Column → Bool} {steps : Column → List Step} (run : SessionRun σ)
    (hmet : ∀ c, met c = true → (f c).outcome run = (.ok (), run))
    (hsteps : ∀ c, met c = false → (f c).outcome run = (perform db (steps c)).outcome run) :
    (current >>= f).outcome run =
      performed db (run.session.activeColumn.map fun c => if met c then [] else steps c) run := by
  rw [Attempt.outcome_bind, current_outcome]
  cases run.session.activeColumn with
  | error e => rfl
  | ok c =>
    cases h : met c with
    | true => simp [performed, Except.map, h, hmet c h, perform]
    | false => simp [performed, Except.map, h, hsteps c h]

/-! ## Verbs and their plans -/

def Planned (db : Database σ) (v : AlterVerb) : Prop :=
  ∀ run, (v.apply db).outcome run = performed db (plan db run.session v) run

theorem addColumn_planned (db : Database σ) (name spec : String) :
    Planned db (.addColumn name spec) := by
  intro run
  simp only [AlterVerb.apply, addColumn, plan, Attempt.outcome_bind, Attempt.outcome_ofExcept]
  cases Identifier.column name with
  | error e => rfl
  | ok name =>
    cases Identifier.rawFragment "column spec" spec with
    | error e => rfl
    | ok spec =>
      by_cases hold : (run.session.snapshot.column? name).isSome = true <;>
        simp [hold, Except.bind, performed, Step.run]

theorem dropColumn_planned (db : Database σ) (name : String) : Planned db (.dropColumn name) := by
  intro run
  simp only [AlterVerb.apply, dropColumn, plan, Attempt.outcome_bind, Attempt.outcome_ofExcept,
    session_outcome]
  cases run.session.existing name with
  | error e => rfl
  | ok name =>
    simp only [performed, Except.map, perform_cons_outcome, perform_single, Step.run,
      Attempt.outcome_bind, session_outcome]
    rcases (change db (.dropColumn name)).outcome run with ⟨_ | _, after⟩ <;> rfl

theorem modifyColumn_planned (db : Database σ) (name : String) (spec : Option String) :
    Planned db (.modifyColumn name spec) := by
  intro run
  cases spec with
  | none =>
    simp only [AlterVerb.apply, modifyColumn, plan, Attempt.outcome_bind, Attempt.outcome_ofExcept,
      session_outcome]
    cases run.session.existing name <;> rfl
  | some spec =>
    simp only [AlterVerb.apply, modifyColumn, plan, Attempt.outcome_bind, Attempt.outcome_ofExcept,
      session_outcome]
    cases run.session.existing name with
    | error e => rfl
    | ok name =>
      cases Identifier.rawFragment "column spec" spec <;>
        simp [performed, Except.map, perform_cons_outcome, Step.run]

theorem addForeignKey_planned (db : Database σ) (refTable refColumn : String)
    (name : Option String) : Planned db (.addForeignKey refTable refColumn name) := by
  intro run
  simp only [AlterVerb.apply, addForeignKey, plan, Attempt.outcome_bind, Attempt.outcome_ofExcept]
  cases db.tableName refTable with
  | error e => rfl
  | ok refTable =>
    cases Identifier.column refColumn with
    | error e => rfl
    | ok refColumn =>
      simp only [current_outcome]
      cases run.session.activeColumn with
      | error e => rfl
      | ok c =>
        cases hrefers : refersTo c refTable refColumn with
        | some key => simp [performed, Except.bind, hrefers, perform]
        | none =>
          cases name with
          | none =>
            simp [performed, Except.bind, Except.map, hrefers, nameOr, Step.run,
              Attempt.outcome_bind, foreignKeyName]
          | some name =>
            simp only [performed, Except.bind, hrefers, nameOr, Attempt.outcome_bind,
              session_outcome, Attempt.outcome_ofExcept, Option.isNone_none, if_true,
              Option.isSome_none, Bool.false_eq_true, if_false]
            cases Identifier.column name <;> simp [Except.map, Step.run]

theorem dropForeignKey_planned (db : Database σ) (refTable refColumn : String)
    (name : Option String) : Planned db (.dropForeignKey refTable refColumn name) := by
  intro run
  simp only [AlterVerb.apply, dropForeignKey, plan, Attempt.outcome_bind, Attempt.outcome_ofExcept]
  cases db.tableName refTable with
  | error e => rfl
  | ok refTable =>
    cases Identifier.column refColumn with
    | error e => rfl
    | ok refColumn =>
      simp only [current_outcome]
      cases run.session.activeColumn with
      | error e => rfl
      | ok c =>
        cases hrefers : refersTo c refTable refColumn with
        | none => simp [performed, Except.bind, hrefers, perform]
        | some key =>
          cases name with
          | none =>
            by_cases hkey : key.constraint.isEmpty = true <;>
              simp [performed, Except.bind, Except.map, hrefers, nameOr, Step.run,
                Attempt.outcome_bind, foreignKeyName, hkey]
          | some name =>
            simp only [performed, Except.bind, hrefers, nameOr, Attempt.outcome_bind,
              Attempt.outcome_ofExcept]
            cases Identifier.column name <;> simp [Except.map, Step.run]

theorem addNotNull_planned (db : Database σ) (backfill : Option Value) :
    Planned db (.addNotNull backfill) := by
  intro run
  apply outcome_current_bind
  · intro c hc
    simp_all [AlterVerb.isMet]
  · intro c hc
    have hnullable : c.nullable = true := by simpa [AlterVerb.isMet] using hc
    cases backfill with
    | none => simp [hnullable, AlterVerb.steps, Step.run]
    | some value =>
      simp only [hnullable, if_true, AlterVerb.steps, Option.map_some, Option.toList_some,
        List.singleton_append, perform_cons_outcome, perform_single, Step.run,
        Attempt.outcome_bind, session_outcome]
      rcases (onStore (db.executeOn run.session.table
        (backfillStatement run.session.table c.name)
        (Bindings.empty.insert "backfill" value))).outcome run with ⟨_ | _, after⟩ <;> rfl

theorem addAutoIncrement_planned (db : Database σ) : Planned db .addAutoIncrement := by
  intro run
  apply outcome_current_bind
  · intro c hc
    simp_all [AlterVerb.isMet]
  -- The column is looked up again for the last statement, so the plan cannot name it.
  · intro c hc
    have hnot : c.autoIncrement = false := hc
    simp only [hnot, Bool.not_false, if_true, AlterVerb.steps]
    cases hkey : c.primaryKey with
    | true =>
      rw [if_pos rfl, perform_single]
      rfl
    | false =>
      rw [if_neg Bool.false_ne_true]
      simp only [Bool.not_false, if_true, Attempt.outcome_bind, session_outcome]
      have hkeyed : ∀ after : SessionRun σ,
          (change db (.addPrimaryKey c.name) >>= fun _ => Step.countUp.run db).outcome after =
            (perform db [.alter (.addPrimaryKey c.name), .countUp]).outcome after := by
        intro after
        rw [perform, perform_single]
        rfl
      have hdemote : (demote db).outcome run =
          ((Step.alter (keyDrop db.dialect run.session)).run db).outcome run := rfl
      by_cases hold : run.session.snapshot.primaryKey?.isSome = true
      · rw [if_pos hold, if_pos hold, Attempt.outcome_bind, perform_cons_outcome, hdemote]
        rcases ((Step.alter (keyDrop db.dialect run.session)).run db).outcome run with
          ⟨_ | _, after⟩
        · rfl
        · exact hkeyed after
      · rw [if_neg hold, if_neg hold]
        exact hkeyed run

theorem apply_outcome (db : Database σ) (v : AlterVerb) (run : SessionRun σ) :
    (v.apply db).outcome run = performed db (plan db run.session v) run := by
  cases v with
  | addColumn name spec => exact addColumn_planned db name spec run
  | dropColumn name => exact dropColumn_planned db name run
  | modifyColumn name spec => exact modifyColumn_planned db name spec run
  | addForeignKey refTable refColumn name => exact addForeignKey_planned db _ _ _ run
  | dropForeignKey refTable refColumn name => exact dropForeignKey_planned db _ _ _ run
  | addNotNull backfill => exact addNotNull_planned db backfill run
  | addAutoIncrement => exact addAutoIncrement_planned db run
  | addUnique =>
    apply outcome_current_bind
    · intro c hc
      rcases Bool.or_eq_true_iff.mp hc with h | h <;> simp [h]
    · intro c hc
      simp_all [AlterVerb.isMet, AlterVerb.steps, Step.run, Attempt.outcome_bind]
  | _ =>
    apply outcome_current_bind
    · intro c hc
      simp_all [AlterVerb.isMet]
    · intro c hc
      simp_all [AlterVerb.isMet, AlterVerb.steps, Step.run, demote, keyDrop, Attempt.outcome_bind]

theorem apply_eq (db : Database σ) (v : AlterVerb) :
    v.apply db = session >>= fun s => ofExcept (plan db s v) >>= perform db := by
  apply Attempt.ext_outcome
  intro run
  rw [apply_outcome, Attempt.outcome_bind, session_outcome]
  simp only [Attempt.outcome_bind, Attempt.outcome_ofExcept]
  cases plan db run.session v <;> rfl

end AlterSession

end QueryLoom
