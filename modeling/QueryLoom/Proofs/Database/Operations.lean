import QueryLoom.Proofs.Database.Freshness

/-!
# Operations on a store

Each operation of a database is built from calls of the client. It either reads through the cache,
or asks about a table, or writes to one and then drops what the cache has of it; so with a cache
it goes along with the operation without one.
-/

set_option autoImplicit false

namespace QueryLoom

namespace Chain

/-- What compiles has a table and an operation. -/
theorem compile_ok {c : Chain} {d : Dialect} {q : Compiled} (h : c.compile d = .ok q) :
    ∃ table s, c.table = some table ∧ c.operation = some q.operation ∧
      c.statement d table q.operation = .ok s ∧ q.sql = String.ofList (Text.collapse s.toList) ∧
      q.tables.head? = some table := by
  unfold compile requireTable requireOperation at h
  cases ht : c.table with
  | none => simp [ht, Bind.bind, Except.bind] at h
  | some table =>
    cases ho : c.operation with
    | none => simp [ht, ho, Bind.bind, Except.bind] at h
    | some op =>
      cases hs : c.statement d table op with
      | error e => simp [ht, ho, hs, Bind.bind, Except.bind] at h
      | ok s =>
        simp only [ht, ho, hs, Bind.bind, Except.bind, pure, Except.pure, Except.ok.injEq] at h
        subst h
        exact ⟨table, s, rfl, rfl, hs, rfl, rfl⟩

end Chain

variable {σ ω κ α β : Type} {view : σ → ω} {contents : ω → String → κ}
  {reads : Compiled → Prop} {writes : String → String → Bindings → Prop} {given : Prop}

namespace Database

open Coupling

theorem onConnection_bind (a : Attempt σ α) (f : α → Attempt σ β) :
    onConnection (a >>= f) = onConnection a >>= fun x => onConnection (f x) :=
  Attempt.within_bind Store.connection (fun s store => { store with connection := s })
    (fun _ _ => rfl) (fun _ _ _ => rfl) a f

def writeCall (db : Database σ) (q : Compiled) : Attempt σ Outcome := do
  match q.operation with
  | .insert =>
    match db.dialect with
    | .postgres =>
      let rows ← db.client.fetch q.sql q.bindings
      return .inserted rows.length (rows.head?.bind fun r => r.get? "id")
    | .mySql =>
      let affected ← db.client.execute q.sql q.bindings
      return .inserted affected (← db.client.lastInsertId)
  | _ => return .affected (← db.client.execute q.sql q.bindings)

theorem runWrite_eq (db : Database σ) (q : Compiled) :
    db.runWrite q = onConnection (db.writeCall q) := by
  unfold runWrite writeCall runInsert
  cases q.operation <;> cases db.dialect <;> simp only [onConnection_bind] <;> rfl

theorem writeCall_audited (db : Database σ) (q : Compiled) :
    db.audited.writeCall q = (db.writeCall q).audited := by
  have hdialect : db.audited.dialect = db.dialect := rfl
  unfold writeCall
  rw [hdialect]
  cases q.operation <;> cases db.dialect <;>
    simp only [Attempt.audited_bind, Attempt.audited_pure] <;> rfl

theorem writeCall_confined {db : Database σ}
    (hclient : db.client.IsStore view contents reads writes) {table : String} {q : Compiled}
    (hq : writes table q.sql q.bindings) :
    (db.writeCall q).Confined view contents [table] := by
  have hexecute := hclient.execute table q.sql q.bindings hq
  have hfetch := hclient.fetch table q.sql q.bindings hq
  have hid := Attempt.confined_mono hclient.lastInsertId (List.nil_subset [table])
  unfold writeCall
  split
  · split
    · exact Attempt.confined_bind hfetch fun rows => Attempt.confined_pure _ _ _ _
    · refine Attempt.confined_bind hexecute fun n => ?_
      exact Attempt.confined_bind hid fun id => Attempt.confined_pure _ _ _ _
  · exact Attempt.confined_bind hexecute fun n => Attempt.confined_pure _ _ _ _

theorem attempts_runSelect {db : Database σ}
    (hclient : db.client.IsStore view contents reads writes) (hkeys : Cache.Distinguishes reads)
    {c : Chain} (hc : ∀ q, c.compile db.dialect = .ok q → reads q) :
    (coupling db.client view reads).Attempts given (fun _ => True) (db.runSelect c)
      (db.audited.runSelect c) := by
  unfold runSelect
  refine attempts_ofExcept_bind fun q hq => ?_
  refine attempts_seq (attempts_fetchCompiled hclient hkeys (hc q hq)) fun rows => ?_
  split <;> exact attempts_pure trivial

theorem attempts_runMutation {db : Database σ}
    (hclient : db.client.IsStore view contents reads writes) {c : Chain}
    (hc : ∀ table q, c.operation ≠ some .select → c.table = some table →
      c.compile db.dialect = .ok q → writes table q.sql q.bindings) :
    (coupling db.client view reads).Attempts given (fun _ => True) (db.runMutation c)
      (db.audited.runMutation c) := by
  unfold runMutation
  split
  · exact attempts_throw _
  · rename_i hop
    refine attempts_ofExcept_bind fun q hq => ?_
    obtain ⟨table, s, htable, -, -, -, hhead⟩ := Chain.compile_ok hq
    rw [runWrite_eq, runWrite_eq, writeCall_audited, hhead]
    refine attempts_commit hclient fun _ => writeCall_confined hclient (hc table q ?_ htable hq)
    intro hselect
    simp [hselect] at hop

theorem attempts_executeOn {db : Database σ}
    (hclient : db.client.IsStore view contents reads writes) {table sql : String} {b : Bindings}
    (hw : given → writes table sql b) :
    (coupling db.client view reads).Attempts given (fun _ => True) (db.executeOn table sql b)
      (db.audited.executeOn table sql b) :=
  attempts_commit hclient fun h => hclient.execute table sql b (hw h)

theorem attempts_describe {db : Database σ}
    (hclient : db.client.IsStore view contents reads writes) (table : String) :
    (coupling db.client view reads).Attempts given (fun _ => True)
      (onConnection (db.client.describeTable table))
      (onConnection (db.audited.client.describeTable table)) :=
  attempts_onConnection hclient (hclient.describe table)

end Database

end QueryLoom
