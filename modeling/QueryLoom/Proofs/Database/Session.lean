import QueryLoom.Proofs.AlterSession.Plan
import QueryLoom.Proofs.Database.Operations

/-!
# Sessions on a store

A verb of a session looks at its snapshot and comes to a plan, whose steps send statements on its
table and take new snapshots. Where two databases look at tables alike and send alike what the
verb can send, the same session on both comes to the same plan and goes through the same steps.
-/

set_option autoImplicit false

namespace QueryLoom

namespace AlterSession

open Coupling

variable {σ τ α : Type} {given : Prop}

def coupling (K : Coupling (Store σ) (Store τ)) (opened : String → Prop) :
    Coupling (SessionRun σ) (SessionRun τ) where
  related x y := x.session = y.session ∧ opened x.session.table ∧ K.related x.store y.store
  spoiled y := K.spoiled y.store

section Parts

variable {K : Coupling (Store σ) (Store τ)} {opened : String → Prop} {post : α → Prop}

theorem attempts_session :
    (coupling K opened).Attempts given (fun s => opened s.table) session session := by
  refine ⟨fun _ h => h, ?_⟩
  rintro - x y ⟨hsession, hopened, hstore⟩ -
  refine ⟨congrArg Except.ok hsession, fun s hs => ?_, hsession, hopened, hstore⟩
  cases hs
  exact hopened

theorem attempts_onStore {a : Attempt (Store σ) α} {b : Attempt (Store τ) α}
    (h : K.Attempts given post a b) :
    (coupling K opened).Attempts given post (onStore a) (onStore b) := by
  refine ⟨fun y hy => h.stays y.store hy, ?_⟩
  rintro hgiven x y ⟨hsession, hopened, hstore⟩ hend
  obtain ⟨hresult, hpost, hrelated⟩ := h.agrees hgiven x.store y.store hstore hend
  exact ⟨hresult, hpost, hsession, hopened, hrelated⟩

/-- What is noted in the session, its table excepted, is noted in both. -/
theorem attempts_modify (f : AlterSession → AlterSession) (hf : ∀ s, (f s).table = s.table) :
    (coupling K opened).Attempts given (fun _ => True)
      (modify fun run => { run with session := f run.session })
      (modify fun run => { run with session := f run.session }) := by
  refine ⟨fun _ h => h, ?_⟩
  rintro - x y ⟨hsession, hopened, hstore⟩ -
  refine ⟨rfl, fun _ _ => trivial, ?_, ?_, hstore⟩
  · exact congrArg f hsession
  · show opened (f x.session).table
    rw [hf]
    exact hopened

theorem attempts_setActive (name : Option String) :
    (coupling K opened).Attempts given (fun _ => True) (setActive name) (setActive name) :=
  attempts_modify (fun s => { s with active := name }) fun _ => rfl

theorem attempts_current :
    (coupling K opened).Attempts given (fun _ => True) current current := by
  refine attempts_bind attempts_session fun s => ?_
  exact attempts_ofExcept fun _ _ => trivial

/-- A session stays on its table. -/
theorem attempts_of_table {a : Attempt (SessionRun σ) α} {b : Attempt (SessionRun τ) α}
    (h : ∀ table, (coupling K (· = table)).Attempts (given ∧ opened table) post a b) :
    (coupling K opened).Attempts given post a b := by
  refine ⟨fun y hy => (h y.session.table).stays y hy, ?_⟩
  rintro hgiven x y ⟨hsession, hopened, hstore⟩ hend
  obtain ⟨hresult, hpost, hsession', htable, hstore'⟩ :=
    (h x.session.table).agrees ⟨hgiven, hopened⟩ x y ⟨hsession, rfl, hstore⟩ hend
  refine ⟨hresult, hpost, hsession', ?_, hstore'⟩
  show opened ((a.outcome x).2.session.table)
  rw [htable]
  exact hopened

end Parts

/-- Databases on coupled stores that look at tables alike and send such statements alike. -/
structure Alongside (K : Coupling (Store σ) (Store τ)) (sent : String → String → Bindings → Prop)
    (db : Database σ) (db' : Database τ) : Prop where
  dialect : db'.dialect = db.dialect
  tableName : db'.tableName = db.tableName
  send : ∀ {given : Prop} {table sql : String} {b : Bindings}, (given → sent table sql b) →
    K.Attempts given (fun _ => True) (db.executeOn table sql b) (db'.executeOn table sql b)
  describe : ∀ {given : Prop} table, K.Attempts given (fun _ => True)
    (Database.onConnection (db.client.describeTable table))
    (Database.onConnection (db'.client.describeTable table))

section Verbs

variable {K : Coupling (Store σ) (Store τ)} {opened : String → Prop}
  {sent : String → String → Bindings → Prop} {db : Database σ} {db' : Database τ}
  (h : Alongside K sent db db')

include h

theorem attempts_change {a : Alteration}
    (ha : given → ∀ table, opened table → sent table (a.statement table) .empty) :
    (coupling K opened).Attempts given (fun _ => True) (change db a) (change db' a) := by
  unfold change
  refine attempts_bind attempts_session fun s => ?_
  refine attempts_seq (attempts_onStore (h.send fun hg => ha hg.1 s.table hg.2)) fun _ => ?_
  refine attempts_seq (attempts_onStore (h.describe s.table)) fun t => ?_
  exact attempts_modify (fun s => { s with snapshot := t }) fun _ => rfl

/-- One step. -/
theorem attempts_step {step : Step} (hstep : given → ∀ table, opened table → ∀ sql b,
      step.Sends db.dialect table sql b → sent table sql b) :
    (coupling K opened).Attempts given (fun _ => True) (step.run db) (step.run db') := by
  cases step with
  | fill column value =>
    refine attempts_bind attempts_session fun s => ?_
    refine attempts_seq (attempts_onStore (h.send fun hg => ?_)) fun _ => attempts_pure trivial
    exact hstep hg.1 s.table hg.2 _ _ .fill
  | alter a => exact attempts_change h fun hg table ht => hstep hg table ht _ _ .alter
  | countUp =>
    rw [Step.run, Step.run, h.dialect]
    refine attempts_seq attempts_current fun c => ?_
    exact attempts_change h fun hg table ht => hstep hg table ht _ _ (.countUp c)
  | choose column => exact attempts_setActive (some column)
  | forget column =>
    refine attempts_bind attempts_session fun s => ?_
    exact attempts_if fun _ => attempts_setActive none
  | refuse e => exact attempts_throw e

/-- One step after the other. -/
theorem attempts_perform {steps : List Step}
    (hsteps : given → ∀ table, opened table → ∀ step ∈ steps, ∀ sql b,
      step.Sends db.dialect table sql b → sent table sql b) :
    (coupling K opened).Attempts given (fun _ => True) (perform db steps) (perform db' steps) := by
  induction steps with
  | nil => exact attempts_pure trivial
  | cons step steps ih =>
    refine attempts_seq (attempts_step h fun hg table ht => ?_) fun _ => ih fun hg table ht => ?_
    · exact hsteps hg table ht step (List.mem_cons_self ..)
    · exact fun step hstep => hsteps hg table ht step (List.mem_cons_of_mem _ hstep)

/-- A verb does the same on both, where all that it can send is sent alike. -/
theorem attempts_apply {verb : AlterVerb} (hsends : ∀ table, opened table → ∀ sql b,
      verb.Sends db table sql b → sent table sql b) :
    (coupling K opened).Attempts given (fun _ => True) (verb.apply db) (verb.apply db') := by
  -- The steps are those of the table that the session is on, so the table is held fixed.
  refine attempts_of_table fun table => ?_
  rw [apply_eq, apply_eq]
  refine attempts_bind attempts_session fun s => ?_
  rw [plan_congr h.dialect h.tableName]
  refine attempts_ofExcept_bind fun steps hplan => attempts_perform h ?_
  rintro ⟨⟨-, hopened⟩, hs⟩ t rfl step hstep sql b hsent
  exact hsends t hopened sql b ⟨s, steps, hs, hplan, step, hstep, hsent⟩

end Verbs

end AlterSession

end QueryLoom
