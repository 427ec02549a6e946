import QueryLoom.Proofs.Database.Desk

/-!
# Writes drop what the cache has of their table

A client may keep a journal of the statements that it ran with success. A request that writes to a
table leaves the cache without anything of that table as soon as the journal has an entry, also
where it fails afterwards: the second statement of a verb, the new snapshot of a session. One
failure comes between a write and the cache: where a row is inserted and its identifier is then
not told, the cache stays as it was.
-/

set_option autoImplicit false

namespace QueryLoom

variable {σ ε α : Type}

/-! ## Journals -/

def Attempt.journaled (entries : List ε) (a : Attempt σ α) : Attempt (σ × List ε) α :=
  ExceptT.mk fun (s, journal) =>
    let (result, t) := a.outcome s
    (result, (t, if result.isOk then journal ++ entries else journal))

theorem Attempt.outcome_journaled (entries : List ε) (a : Attempt σ α) (s : σ)
    (journal : List ε) :
    (a.journaled entries).outcome (s, journal) = ((a.outcome s).1, ((a.outcome s).2,
      if (a.outcome s).1.isOk then journal ++ entries else journal)) := rfl

abbrev Sent := String × Bindings

def Client.journaled (client : Client σ) : Client (σ × List Sent) where
  dialect := client.dialect
  fetch sql b := (client.fetch sql b).journaled [(sql, b)]
  execute sql b := (client.execute sql b).journaled [(sql, b)]
  lastInsertId := client.lastInsertId.journaled []
  describeTable table := (client.describeTable table).journaled []

def Database.journaled (db : Database σ) : Database (σ × List Sent) :=
  ⟨db.client.journaled, db.config⟩

def Store.journaled (s : Store σ) : Store (σ × List Sent) := ⟨(s.connection, []), s.cache⟩

def Desk.journaled (d : Desk σ) : Desk (σ × List Sent) := ⟨d.store.journaled, d.sessions⟩

namespace Database

/-- The statements that the client runs with success while a request is served. -/
def journal (db : Database σ) (r : Request) (d : Desk σ) : List Sent :=
  (db.journaled.serve r d.journaled).2.store.connection.2

/-! ## Tables of requests -/

def target? (db : Database σ) (d : Desk σ) : Request → Option String
  | .query c => c.table
  | .createTable name _ => (db.tableName name).toOption
  | .dropTable name => (db.tableName name).toOption
  | .truncateTable name => (db.tableName name).toOption
  | .change i _ => d.sessions[i]?.map AlterSession.table
  | _ => none

end Database

def Store.HasNothingOf (table : String) (s : Store σ) : Prop :=
  ∀ c, s.cache = some c → ∀ e ∈ c.entries, table ∉ e.tables

theorem Cache.hasNothingOf_clear (table : String) (connection : σ) (cache : Option Cache) :
    Store.HasNothingOf table ⟨connection, cache.map fun c => (c.clear table).2⟩ := by
  intro c hc e he
  obtain ⟨before, -, rfl⟩ := Option.map_eq_some_iff.mp hc
  exact (Cache.mem_clear he).2

namespace Database

/-- A row is inserted, and then its identifier is not told. -/
def LosesIdentifier (db : Database σ) (q : Compiled) (s : σ) : Prop :=
  db.dialect = .mySql ∧ q.operation = .insert ∧
    ∃ n u e v, (db.client.execute q.sql q.bindings).outcome s = (.ok n, u) ∧
      db.client.lastInsertId.outcome u = (.error e, v)

def LosesIdentifierOf (db : Database σ) (r : Request) (d : Desk σ) : Prop :=
  ∃ c q, r = .query c ∧ c.compile db.dialect = .ok q ∧ db.LosesIdentifier q d.store.connection

/-! ## Beside a journal -/

open Coupling

/-- A store beside one with a journal; once that has an entry, nothing of the table is cached. -/
def journalCoupling (σ : Type) (table : String) :
    Coupling (Store σ) (Store (σ × List Sent)) where
  related s t := s.connection = t.connection.1 ∧ s.cache = t.cache ∧
    (t.connection.2 ≠ [] → s.HasNothingOf table)
  spoiled _ := False

variable {db : Database σ} {table : String} {given : Prop}

theorem journaled_related (table : String) (s : Store σ) :
    (journalCoupling σ table).related s s.journaled := ⟨rfl, rfl, fun h => absurd rfl h⟩

theorem attempts_commit_journaled (a : Attempt σ α) (entries : List Sent) :
    (journalCoupling σ table).Attempts given (fun _ => True) (commit table a)
      (commit table (a.journaled entries)) := by
  refine ⟨fun _ h => h, ?_⟩
  rintro - ⟨s, cache⟩ ⟨⟨t, journal⟩, cache'⟩ ⟨hconnection, hcache, hjournal⟩ -
  obtain rfl : s = t := hconnection
  obtain rfl : cache = cache' := hcache
  rw [commit_outcome, commit_outcome, Attempt.outcome_journaled]
  rcases a.outcome s with ⟨e | x, u⟩
  · exact ⟨rfl, fun _ _ => trivial, rfl, rfl, hjournal⟩
  · exact ⟨rfl, fun _ _ => trivial, rfl, rfl, fun _ => Cache.hasNothingOf_clear table u cache⟩

/-- A call that is not noted leaves both the journal and the cache. -/
theorem attempts_unnoted (a : Attempt σ α) :
    (journalCoupling σ table).Attempts given (fun _ => True) (onConnection a)
      (onConnection (a.journaled [])) := by
  refine ⟨fun _ h => h, ?_⟩
  rintro - ⟨s, cache⟩ ⟨⟨t, journal⟩, cache'⟩ ⟨hconnection, hcache, hjournal⟩ -
  obtain rfl : s = t := hconnection
  obtain rfl : cache = cache' := hcache
  rw [outcome_onConnection, outcome_onConnection, Attempt.outcome_journaled]
  refine ⟨rfl, fun _ _ => trivial, rfl, rfl, fun h => hjournal ?_⟩
  simpa using h

theorem attempts_executeOn_journaled {name : String} (hname : given → name = table)
    (sql : String) (b : Bindings) :
    (journalCoupling σ table).Attempts given (fun _ => True) (db.executeOn name sql b)
      (db.journaled.executeOn name sql b) := by
  refine ⟨fun _ h => h, fun hgiven => ?_⟩
  obtain rfl := hname hgiven
  have hcommit : (journalCoupling σ name).Attempts True (fun _ => True)
      (db.executeOn name sql b) (db.journaled.executeOn name sql b) :=
    attempts_commit_journaled (db.client.execute sql b) [(sql, b)]
  exact hcommit.agrees trivial

/-- One statement on the table. -/
theorem attempts_named_journaled {name : String} (sql : String → String)
    (ht : db.tableName name = .ok table) :
    (journalCoupling σ table).Attempts given (fun _ => True)
      (ofExcept (db.tableName name) >>= fun t => db.executeOn t (sql t) .empty)
      (ofExcept (db.journaled.tableName name) >>= fun t =>
        db.journaled.executeOn t (sql t) .empty) := by
  refine attempts_ofExcept_bind fun t h => attempts_executeOn_journaled (fun _ => ?_) _ _
  exact Except.ok.inj (h.symm.trans ht)

theorem attempts_createTable_journaled {name : String} (columns : List (String × String))
    (ht : db.tableName name = .ok table) :
    (journalCoupling σ table).Attempts given (fun _ => True) (db.createTable name columns)
      (db.journaled.createTable name columns) := by
  unfold createTable
  split
  · exact attempts_throw _
  · refine attempts_ofExcept_bind fun t h => attempts_ofExcept_bind fun texts _ => ?_
    exact attempts_executeOn_journaled (fun _ => Except.ok.inj (h.symm.trans ht)) _ _

theorem alongside_journaled :
    AlterSession.Alongside (journalCoupling σ table) (fun t _ _ => t = table) db db.journaled where
  dialect := rfl
  tableName := rfl
  send := fun ht => attempts_executeOn_journaled ht _ _
  describe name := attempts_unnoted (db.client.describeTable name)

/-- What goes along with its journal has dropped the entries of the table once one is noted. -/
theorem hasNothingOf_of_noted {a : Attempt (Store σ) α} {b : Attempt (Store (σ × List Sent)) α}
    (h : (journalCoupling σ table).Attempts True (fun _ => True) a b) (s : Store σ)
    (hnoted : (b.outcome s.journaled).2.connection.2 ≠ []) :
    (a.outcome s).2.HasNothingOf table := by
  obtain ⟨-, -, -, -, hdropped⟩ :=
    h.agrees trivial s s.journaled (journaled_related table s) fun h => h
  exact hdropped hnoted

/-! ## Chains that write -/

/-- What is done with the value of a call that was noted succeeds as well. -/
theorem ok_of_noted {β : Type} {a : Attempt σ α} {entries : List Sent} {f : α → β} {s : σ}
    (hnoted : ((a.journaled entries >>= fun x => pure (f x)).outcome (s, [])).2.2 ≠ []) :
    ∃ y, ((a >>= fun x => pure (f x)).outcome s).1 = .ok y := by
  rw [Attempt.outcome_bind, Attempt.outcome_journaled] at hnoted
  rw [Attempt.outcome_bind]
  rcases h : a.outcome s with ⟨e | x, u⟩
  · simp [h, Except.isOk, Except.toBool] at hnoted
  · exact ⟨f x, rfl⟩

/-- If a call of a write is noted, the write succeeds or the identifier is lost. -/
theorem writeCall_noted (db : Database σ) (q : Compiled) (s : σ)
    (hnoted : ((db.journaled.writeCall q).outcome (s, [])).2.2 ≠ []) :
    (∃ x, ((db.writeCall q).outcome s).1 = .ok x) ∨ db.LosesIdentifier q s := by
  have hdialect : db.journaled.dialect = db.dialect := rfl
  unfold writeCall at hnoted ⊢
  rw [hdialect] at hnoted
  cases hop : q.operation with
  | insert =>
    cases hd : db.dialect with
    | postgres =>
      rw [hop, hd] at hnoted
      exact Or.inl (ok_of_noted hnoted)
    | mySql =>
      simp only [hop, hd] at hnoted ⊢
      change ((((db.client.execute q.sql q.bindings).journaled [(q.sql, q.bindings)]) >>= fun n =>
        db.client.lastInsertId.journaled [] >>= fun id => pure (Outcome.inserted n id)).outcome
          (s, [])).2.2 ≠ [] at hnoted
      rw [Attempt.outcome_bind, Attempt.outcome_journaled] at hnoted
      rw [Attempt.outcome_bind]
      rcases hn : (db.client.execute q.sql q.bindings).outcome s with ⟨e | n, u⟩
      · simp [hn, Except.isOk, Except.toBool] at hnoted
      · rcases hid : db.client.lastInsertId.outcome u with ⟨e | id, v⟩
        · exact Or.inr ⟨hd, hop, n, u, e, v, hn, hid⟩
        · exact Or.inl ⟨.inserted n id, by simp [hid, Except.map]⟩
  | select | update | delete =>
    rw [hop] at hnoted
    exact Or.inl (ok_of_noted hnoted)

theorem writeCall_losesIdentifier {q : Compiled} {s : σ} (h : db.LosesIdentifier q s) :
    ∃ e, ((db.writeCall q).outcome s).1 = .error e := by
  obtain ⟨hd, hop, n, u, e, v, hn, hid⟩ := h
  refine ⟨e, ?_⟩
  unfold writeCall
  simp only [hop, hd, Attempt.outcome_bind, hn, hid]

/-- A chain that writes does its calls and then drops what the cache has of its table. -/
theorem runMutation_eq {c : Chain} {q : Compiled} (hselect : c.operation ≠ some .select)
    (ht : c.table = some table) (hq : c.compile db.dialect = .ok q) :
    db.runMutation c = commit table (db.writeCall q) := by
  obtain ⟨t, s, ht', hop, -, -, hhead⟩ := Chain.compile_ok hq
  obtain rfl : table = t := Option.some.inj (ht.symm.trans ht')
  have hwrites : ¬ (c.operation.isNone || c.operation = some .select) = true := by
    simp [hop] at hselect ⊢
    exact hselect
  unfold runMutation
  rw [if_neg hwrites, hq]
  change db.runWrite q >>= (fun outcome => do q.tables.head?.forM invalidate; return outcome) = _
  rw [runWrite_eq, hhead]
  rfl

theorem runMutation_noted (db : Database σ) {c : Chain} (ht : c.table = some table) (s : Store σ)
    (hnoted : ((db.journaled.runMutation c).outcome s.journaled).2.connection.2 ≠ []) :
    ∃ q, c.operation ≠ some .select ∧ c.compile db.dialect = .ok q ∧
      ((∃ x, ((db.writeCall q).outcome s.connection).1 = .ok x) ∨
        db.LosesIdentifier q s.connection) := by
  have hdialect : db.journaled.dialect = db.dialect := rfl
  by_cases hselect : c.operation = some .select
  · simp [runMutation, hselect, Store.journaled] at hnoted
  · cases hq : c.compile db.dialect with
    | error e =>
      exfalso
      apply hnoted
      unfold runMutation
      rw [hdialect, hq]
      split <;> rfl
    | ok q =>
      rw [runMutation_eq hselect ht (hdialect ▸ hq), commit_outcome] at hnoted
      refine ⟨q, hselect, rfl, writeCall_noted db q s.connection fun hnone => hnoted ?_⟩
      change ((db.journaled.writeCall q).outcome s.journaled.connection).2.2 = [] at hnone
      rcases hcall : (db.journaled.writeCall q).outcome s.journaled.connection with ⟨_ | _, u⟩ <;>
        rw [hcall] at hnone <;> exact hnone

theorem query_outcome {c : Chain} {q : Compiled} (hselect : c.operation ≠ some .select)
    (ht : c.table = some table) (hq : c.compile db.dialect = .ok q) (d : Desk σ) :
    (db.serve (.query c) d).2.store = ((commit table (db.writeCall q)).outcome d.store).2 := by
  rw [← runMutation_eq hselect ht hq]
  rfl

/-- Where the identifier is lost, the cache stays. -/
theorem query_losesIdentifier {c : Chain} {q : Compiled} {d : Desk σ}
    (ht : c.table = some table) (hq : c.compile db.dialect = .ok q)
    (h : db.LosesIdentifier q d.store.connection) :
    (db.serve (.query c) d).2.store.cache = d.store.cache := by
  obtain ⟨-, -, -, hop, -⟩ := Chain.compile_ok hq
  obtain ⟨e, herror⟩ := writeCall_losesIdentifier h
  have hselect : c.operation ≠ some .select := by
    rw [hop, h.2.1]
    decide
  rw [query_outcome hselect ht hq, commit_outcome]
  rcases hcall : (db.writeCall q).outcome d.store.connection with ⟨_ | _, u⟩
  · rfl
  · rw [hcall] at herror
    cases herror

theorem query_hasNothingOf {c : Chain} {d : Desk σ} (ht : c.table = some table)
    (hnoted : db.journal (.query c) d ≠ []) (h : ¬ db.LosesIdentifierOf (.query c) d) :
    (db.serve (.query c) d).2.store.HasNothingOf table := by
  obtain ⟨q, hselect, hq, ⟨x, hx⟩ | hlost⟩ := runMutation_noted db ht d.store hnoted
  · rw [query_outcome hselect ht hq, commit_outcome]
    rcases hcall : (db.writeCall q).outcome d.store.connection with ⟨_ | _, u⟩
    · rw [hcall] at hx
      cases hx
    · exact Cache.hasNothingOf_clear table u d.store.cache
  · exact absurd ⟨c, q, rfl, hq, hlost⟩ h

/-! ## Every request that writes -/

theorem toOption_eq_some {β : Type} {r : Except Error β} {x : β} (h : r.toOption = some x) :
    r = .ok x := by
  cases r with
  | error e => cases h
  | ok y => exact congrArg Except.ok (Option.some.inj h)

theorem change_hasNothingOf {i : Nat} {verb : AlterVerb} {d : Desk σ}
    (htarget : d.sessions[i]?.map AlterSession.table = some table)
    (hnoted : db.journal (.change i verb) d ≠ []) :
    (db.serve (.change i verb) d).2.store.HasNothingOf table := by
  obtain ⟨session, hsession, rfl⟩ := Option.map_eq_some_iff.mp htarget
  have hverb : (AlterSession.coupling (journalCoupling σ session.table)
      fun t => t = session.table).Attempts True (fun _ => True) (verb.apply db)
      (verb.apply db.journaled) :=
    AlterSession.attempts_apply alongside_journaled fun _ ht _ _ _ => ht
  obtain ⟨-, -, -, -, -, -, hdropped⟩ := hverb.agrees trivial ⟨session, d.store⟩
    ⟨session, d.store.journaled⟩ ⟨rfl, rfl, journaled_related session.table d.store⟩ fun h => h
  simp only [journal, serve, Desk.change, Desk.journaled, hsession] at hnoted ⊢
  exact hdropped hnoted

/-- After a request of which a statement took effect, nothing of its table is left in the cache,
whether or not the request succeeded, unless an insertion lost its identifier: then the cache is
left as it was. -/
theorem serve_invalidates (db : Database σ) (d : Desk σ) {r : Request} {table : String}
    (htarget : db.target? d r = some table) (hnoted : db.journal r d ≠ []) :
    (¬ db.LosesIdentifierOf r d → (db.serve r d).2.store.HasNothingOf table) ∧
      (db.LosesIdentifierOf r d → (db.serve r d).2.store.cache = d.store.cache) := by
  constructor
  · intro hkept
    cases r with
    | findAll | find | row | alter => cases htarget
    | query c => exact query_hasNothingOf htarget hnoted hkept
    | createTable name columns =>
      exact hasNothingOf_of_noted
        (attempts_createTable_journaled columns (toOption_eq_some htarget)) d.store hnoted
    | dropTable name =>
      exact hasNothingOf_of_noted
        (attempts_named_journaled (fun t => "DROP TABLE " ++ t) (toOption_eq_some htarget))
        d.store hnoted
    | truncateTable name =>
      exact hasNothingOf_of_noted
        (attempts_named_journaled (fun t => "TRUNCATE TABLE " ++ t) (toOption_eq_some htarget))
        d.store hnoted
    | change i verb => exact change_hasNothingOf htarget hnoted
  · rintro ⟨c, q, rfl, hq, hlost⟩
    exact query_losesIdentifier htarget hq hlost

end Database

/-! ## A table that tells no identifiers -/

def Client.mute : Client Nat where
  fetch _ _ := return []
  execute _ _ := do
    modify (· + 1)
    return 1
  lastInsertId := throw (.query (some "42501"))
  describeTable table := throw (.usage (.tableMissing table))

namespace Client.mute

def database : Database Nat := ⟨mute, { cacheEnabled := true }⟩

def desk : Desk Nat :=
  { store := ⟨0, some ⟨[⟨Cache.key "SELECT * FROM users" .empty, ["users"], []⟩]⟩⟩ }

def newcomer : Chain := { Chain.start .insert "users" with payload := [("name", .text "Ada")] }

def insertion : Compiled :=
  ⟨"INSERT INTO users (name) VALUES (:name)", ⟨[("name", .text "Ada")]⟩, .insert, ["users"], false⟩

/-- The row is there, and the cache still answers that there is none. -/
theorem newcomer_hidden :
    database.target? desk (.query newcomer) = some "users" ∧
      database.journal (.query newcomer) desk ≠ [] ∧
      database.LosesIdentifierOf (.query newcomer) desk ∧
      (database.serve (.query newcomer) desk).2.store.cache = desk.store.cache ∧
      ¬ (database.serve (.query newcomer) desk).2.store.HasNothingOf "users" := by
  have hnoted : database.journal (.query newcomer) desk ≠ [] := by
    rw [show database.journal (.query newcomer) desk = [(insertion.sql, insertion.bindings)]
      from rfl]
    exact List.cons_ne_nil _ _
  have hlost : database.LosesIdentifierOf (.query newcomer) desk :=
    ⟨newcomer, insertion, rfl, rfl, rfl, rfl, 1, 1, .query (some "42501"), 1, rfl, rfl⟩
  have hcache := (Database.serve_invalidates database desk rfl hnoted).2 hlost
  refine ⟨rfl, hnoted, hlost, hcache, fun hnothing => ?_⟩
  exact hnothing _ hcache _ (List.mem_singleton.mpr rfl) (List.mem_singleton.mpr rfl)

end Client.mute

end QueryLoom
