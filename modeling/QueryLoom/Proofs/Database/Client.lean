import QueryLoom.Proofs.Database.Request
import QueryLoom.Proofs.Simulation

/-!
# Clients as stores

A client is a store if what matters of its connection is a view of it, in which the tables have
contents. A statement that reads is answered from the contents of its tables and leaves the view
as it was. Every other call gets its answer from the view, and changes the contents of at most the
table that it names. An audited client notes on its connection whether a call has failed.
-/

set_option autoImplicit false

namespace QueryLoom

variable {σ ω κ α β : Type}

namespace Attempt

/-- The answer comes from the contents of some tables, and nothing changes. -/
structure Answered (view : σ → ω) (contents : ω → String → κ) (tables : List String)
    (a : Attempt σ α) : Prop where
  unchanged : ∀ s, view (a.outcome s).2 = view s
  answer : ∀ s t, (∀ table ∈ tables, contents (view s) table = contents (view t) table) →
    (a.outcome s).1 = (a.outcome t).1

/-- The answer and the change come from the view, and only some tables change. -/
structure Confined (view : σ → ω) (contents : ω → String → κ) (tables : List String)
    (a : Attempt σ α) : Prop where
  answer : ∀ s t, view s = view t → (a.outcome s).1 = (a.outcome t).1
  next : ∀ s t, view s = view t → view (a.outcome s).2 = view (a.outcome t).2
  others : ∀ s table, table ∉ tables →
    contents (view (a.outcome s).2) table = contents (view s) table

def audited (a : Attempt σ α) : Attempt (σ × Bool) α :=
  ExceptT.mk fun (s, failed) =>
    let (result, t) := a.outcome s
    (result, (t, failed || !result.isOk))

end Attempt

namespace Client

/-- The tables of a statement that reads are those that it was compiled with, the table of one
that writes is the one that it names. -/
structure IsStore (client : Client σ) (view : σ → ω) (contents : ω → String → κ)
    (reads : Compiled → Prop) (writes : String → String → Bindings → Prop) : Prop where
  read : ∀ q, reads q → (client.fetch q.sql q.bindings).Answered view contents q.tables
  execute : ∀ table sql b, writes table sql b →
    (client.execute sql b).Confined view contents [table]
  /-- A write may be run for the rows that it gives back. -/
  fetch : ∀ table sql b, writes table sql b → (client.fetch sql b).Confined view contents [table]
  lastInsertId : client.lastInsertId.Confined view contents []
  describe : ∀ table, (client.describeTable table).Confined view contents []

def audited (client : Client σ) : Client (σ × Bool) where
  dialect := client.dialect
  fetch sql b := (client.fetch sql b).audited
  execute sql b := (client.execute sql b).audited
  lastInsertId := client.lastInsertId.audited
  describeTable table := (client.describeTable table).audited

end Client

namespace Database

def audited (db : Database σ) : Database (σ × Bool) :=
  ⟨db.client.audited, { db.config with cacheEnabled := false }⟩

/-- No call of the client fails while a database without a cache serves the requests. -/
def NoCallFails (db : Database σ) (requests : List Request) (connection : σ) : Prop :=
  (db.audited.serveAll requests
    (db.audited.openDesk (connection, false))).2.store.connection.2 = false

end Database

/-! ## Calls in sequence -/

namespace Attempt

theorem outcome_audited (a : Attempt σ α) (s : σ) (failed : Bool) :
    a.audited.outcome (s, failed) =
      ((a.outcome s).1, ((a.outcome s).2, failed || !(a.outcome s).1.isOk)) := rfl

theorem audited_pure (x : α) : (pure x : Attempt σ α).audited = pure x :=
  ext_outcome fun ⟨s, failed⟩ => by
    simp [outcome_audited, Except.isOk, Except.toBool]

theorem audited_bind (a : Attempt σ α) (f : α → Attempt σ β) :
    (a >>= f).audited = a.audited >>= fun x => (f x).audited := by
  refine ext_outcome fun ⟨s, failed⟩ => ?_
  rw [outcome_audited, outcome_bind, outcome_bind, outcome_audited]
  rcases a.outcome s with ⟨_ | x, t⟩
  · rfl
  · simp [outcome_audited, Except.isOk, Except.toBool]

theorem confined_pure (view : σ → ω) (contents : ω → String → κ) (tables : List String) (x : α) :
    (pure x : Attempt σ α).Confined view contents tables :=
  ⟨fun _ _ _ => rfl, fun _ _ h => h, fun _ _ _ => rfl⟩

theorem confined_bind {view : σ → ω} {contents : ω → String → κ} {tables : List String}
    {a : Attempt σ α} {f : α → Attempt σ β} (ha : a.Confined view contents tables)
    (hf : ∀ x, (f x).Confined view contents tables) :
    (a >>= f).Confined view contents tables := by
  have hboth : ∀ s t, view s = view t → ((a >>= f).outcome s).1 = ((a >>= f).outcome t).1 ∧
      view ((a >>= f).outcome s).2 = view ((a >>= f).outcome t).2 := by
    intro s t hst
    have hanswer := ha.answer s t hst
    have hnext := ha.next s t hst
    rw [outcome_bind, outcome_bind]
    rcases hs : a.outcome s with ⟨r, s'⟩
    rcases ht : a.outcome t with ⟨r', t'⟩
    rw [hs, ht] at hanswer hnext
    obtain rfl : r = r' := hanswer
    cases r with
    | error e => exact ⟨rfl, hnext⟩
    | ok x => exact ⟨(hf x).answer s' t' hnext, (hf x).next s' t' hnext⟩
  refine ⟨fun s t hst => (hboth s t hst).1, fun s t hst => (hboth s t hst).2, ?_⟩
  intro s table htable
  have hothers := ha.others s table htable
  rw [outcome_bind]
  rcases hs : a.outcome s with ⟨_ | x, s'⟩
  · rwa [hs] at hothers
  · rw [hs] at hothers
    exact ((hf x).others s' table htable).trans hothers

theorem confined_mono {view : σ → ω} {contents : ω → String → κ} {tables tables' : List String}
    {a : Attempt σ α} (ha : a.Confined view contents tables) (h : tables ⊆ tables') :
    a.Confined view contents tables' :=
  ⟨ha.answer, ha.next, fun s table ht => ha.others s table fun hm => ht (h hm)⟩

end Attempt

end QueryLoom
