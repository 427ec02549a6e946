import QueryLoom.Proofs.Database.Client

/-!
# Freshness of the cache

An entry of the cache is fresh if the client would answer its statement with the same rows now. A
call that changes no table leaves every entry fresh, a write leaves those fresh that have nothing
to do with its table, and it drops the others. So a store with a cache goes along with a store
without one: they agree on the view of their connections, and the cache is fresh.
-/

set_option autoImplicit false

namespace QueryLoom

namespace Cache

variable {c : Cache} {e : Entry} {sql table : String} {b : Bindings} {tables : List String}
  {rows : List Record}

theorem mem_of_get? (h : c.get? sql b = some rows) :
    ∃ e ∈ c.entries, e.key = key sql b ∧ e.rows = rows := by
  obtain ⟨e, he, hrows⟩ := Option.map_eq_some_iff.mp h
  exact ⟨e, List.mem_of_find?_eq_some he, by simpa using List.find?_some he, hrows⟩

theorem mem_put (h : e ∈ (c.put sql b tables rows).2.entries) :
    e ∈ c.entries ∨ e = ⟨key sql b, tables, rows⟩ := by
  unfold put at h
  split at h
  · rcases List.mem_append.mp h with hold | hnew
    · exact Or.inl (List.mem_filter.mp hold).1
    · exact Or.inr (List.mem_singleton.mp hnew)
  · exact Or.inl h

theorem mem_clear (h : e ∈ (c.clear table).2.entries) : e ∈ c.entries ∧ table ∉ e.tables := by
  obtain ⟨hmem, hkept⟩ := List.mem_filter.mp h
  exact ⟨hmem, by simpa using hkept⟩

end Cache

variable {σ ω κ α : Type} {client : Client σ} {view : σ → ω} {contents : ω → String → κ}
  {reads : Compiled → Prop} {writes : String → String → Bindings → Prop}

def Cache.Distinguishes (reads : Compiled → Prop) : Prop :=
  ∀ q q', reads q → reads q' → key q.sql q.bindings = key q'.sql q'.bindings →
    q.sql = q'.sql ∧ q.bindings = q'.bindings

/-- Every entry has the tables of its statement and the rows that it would be answered with. -/
def Store.Fresh (client : Client σ) (reads : Compiled → Prop) (s : Store σ) : Prop :=
  ∀ c, s.cache = some c → ∀ e ∈ c.entries, ∃ q, reads q ∧ e.key = Cache.key q.sql q.bindings ∧
    e.tables = q.tables ∧ ((client.fetch q.sql q.bindings).outcome s.connection).1 = .ok e.rows

/-- What is kept of the cache stays fresh if it has nothing to do with the tables that change. -/
theorem Store.Fresh.of_others (hclient : client.IsStore view contents reads writes)
    {s s' : Store σ} (tables : List String) (h : s.Fresh client reads)
    (hothers : ∀ table, table ∉ tables →
      contents (view s'.connection) table = contents (view s.connection) table)
    (hcache : ∀ c', s'.cache = some c' → ∃ c, s.cache = some c ∧ ∀ e ∈ c'.entries,
      e ∈ c.entries ∧ ∀ table ∈ tables, table ∉ e.tables) : s'.Fresh client reads := by
  intro c' hc' e he
  obtain ⟨c, hc, hkept⟩ := hcache c' hc'
  obtain ⟨hmem, huntouched⟩ := hkept e he
  obtain ⟨q, hq, hkey, htables, hrows⟩ := h c hc e hmem
  refine ⟨q, hq, hkey, htables, ?_⟩
  rw [← hrows]
  refine (hclient.read q hq).answer _ _ fun table htable => hothers table fun hm => ?_
  exact huntouched table hm (htables ▸ htable)

/-- What is found in the cache is what the client would answer. -/
theorem Store.Fresh.found {s : Store σ} (h : s.Fresh client reads)
    (hkeys : Cache.Distinguishes reads) {q : Compiled} (hq : reads q) {rows : List Record}
    (hfound : (s.cache.bind fun c => c.get? q.sql q.bindings) = some rows) :
    ((client.fetch q.sql q.bindings).outcome s.connection).1 = .ok rows := by
  obtain ⟨c, hc, hget⟩ := Option.bind_eq_some_iff.mp hfound
  obtain ⟨e, he, hkey, rfl⟩ := Cache.mem_of_get? hget
  obtain ⟨q', hq', hkey', -, hrows⟩ := h c hc e he
  obtain ⟨hsql, hbindings⟩ := hkeys q q' hq hq' (hkey.symm.trans hkey')
  rw [hsql, hbindings, hrows]

theorem Store.Fresh.put {s : Store σ} (h : s.Fresh client reads) {q : Compiled} (hq : reads q)
    {rows : List Record}
    (hrows : ((client.fetch q.sql q.bindings).outcome s.connection).1 = .ok rows) :
    Store.Fresh client reads
      ⟨s.connection, s.cache.map fun c => (c.put q.sql q.bindings q.tables rows).2⟩ := by
  intro c' hc' e he
  obtain ⟨c, hc, rfl⟩ := Option.map_eq_some_iff.mp hc'
  rcases Cache.mem_put he with hmem | rfl
  · exact h c hc e hmem
  · exact ⟨q, hq, rfl, rfl, hrows⟩

namespace Database

/-- A store beside one without a cache whose connection notes failures. -/
def coupling (client : Client σ) (view : σ → ω) (reads : Compiled → Prop) :
    Coupling (Store σ) (Store (σ × Bool)) where
  related s t := view s.connection = view t.connection.1 ∧ t.cache = none ∧ s.Fresh client reads
  spoiled t := t.connection.2 = true

variable {given : Prop} {a : Attempt σ α}

theorem outcome_onConnection {τ : Type} (a : Attempt τ α) (s : Store τ) :
    (onConnection a).outcome s =
      ((a.outcome s.connection).1, ⟨(a.outcome s.connection).2, s.cache⟩) := rfl

/-- A call that has not failed. -/
theorem call_ok {tables : List String} (ha : a.Confined view contents tables) {s : σ}
    {t : σ × Bool} (hst : view s = view t.1) (hend : ¬ (a.audited.outcome t).2.2 = true) :
    ∃ x s' t', a.outcome s = (.ok x, s') ∧ a.audited.outcome t = (.ok x, t') ∧
      view s' = view t'.1 ∧
      ∀ table, table ∉ tables → contents (view s') table = contents (view s) table := by
  obtain ⟨t, failed⟩ := t
  have hanswer := ha.answer s t hst
  have hnext := ha.next s t hst
  have hothers := ha.others s
  rw [Attempt.outcome_audited] at hend ⊢
  rcases hs : a.outcome s with ⟨r, s'⟩
  rcases ht : a.outcome t with ⟨r', t'⟩
  rw [hs, ht] at hanswer hnext
  rw [hs] at hothers
  rw [ht] at hend
  obtain rfl : r = r' := hanswer
  cases r with
  | error e => simp [Except.isOk, Except.toBool] at hend
  | ok x => exact ⟨x, s', _, rfl, rfl, hnext, hothers⟩

theorem stays_onConnection (a : Attempt σ α) (t : Store (σ × Bool))
    (ht : t.connection.2 = true) :
    ((onConnection a.audited).outcome t).2.connection.2 = true := by
  obtain ⟨⟨t, failed⟩, cache⟩ := t
  obtain rfl : failed = true := ht
  rfl

theorem attempts_onConnection (hclient : client.IsStore view contents reads writes)
    (ha : a.Confined view contents []) :
    (coupling client view reads).Attempts given (fun _ => True) (onConnection a)
      (onConnection a.audited) := by
  refine ⟨stays_onConnection a, fun _ s t ⟨hview, hcache, hfresh⟩ hend => ?_⟩
  obtain ⟨x, s', t', hs, ht, hnext, hothers⟩ := call_ok ha hview hend
  rw [outcome_onConnection, outcome_onConnection, hs, ht]
  refine ⟨rfl, fun _ _ => trivial, hnext, hcache, hfresh.of_others hclient _ hothers ?_⟩
  exact fun c hc => ⟨c, hc, fun e he => ⟨he, by simp⟩⟩

def commit (table : String) (a : Attempt σ α) : Attempt (Store σ) α := do
  let x ← onConnection a
  invalidate table
  return x

theorem commit_outcome {τ : Type} (table : String) (a : Attempt τ α) (s : Store τ) :
    (commit table a).outcome s = match a.outcome s.connection with
      | (.ok x, u) => (.ok x, ⟨u, s.cache.map fun c => (c.clear table).2⟩)
      | (.error e, u) => (.error e, ⟨u, s.cache⟩) := by
  rw [commit, Attempt.outcome_bind, outcome_onConnection]
  rcases a.outcome s.connection with ⟨_ | x, u⟩
  · rfl
  · rfl

theorem attempts_commit (hclient : client.IsStore view contents reads writes) {table : String}
    (ha : given → a.Confined view contents [table]) :
    (coupling client view reads).Attempts given (fun _ => True) (commit table a)
      (commit table a.audited) := by
  constructor
  · intro t ht
    have hconnection := stays_onConnection a t ht
    rw [outcome_onConnection] at hconnection
    show ((commit table a.audited).outcome t).2.connection.2 = true
    rw [commit_outcome]
    rcases h : a.audited.outcome t.connection with ⟨_ | x, u⟩ <;> rwa [h] at hconnection
  · rintro hgiven s t ⟨hview, hcache, hfresh⟩ hend
    have hcall : ¬ (a.audited.outcome t.connection).2.2 = true := by
      intro hfailed
      apply hend
      show ((commit table a.audited).outcome t).2.connection.2 = true
      rw [commit_outcome]
      rcases h : a.audited.outcome t.connection with ⟨_ | x, u⟩ <;> rwa [h] at hfailed
    obtain ⟨x, s', t', hs, ht, hnext, hothers⟩ := call_ok (ha hgiven) hview hcall
    rw [commit_outcome, commit_outcome, hs, ht]
    refine ⟨rfl, fun _ _ => trivial, hnext, by simp [hcache], hfresh.of_others hclient _ hothers ?_⟩
    intro c' hc'
    obtain ⟨c, hc, rfl⟩ := Option.map_eq_some_iff.mp hc'
    refine ⟨c, hc, fun e he => ?_⟩
    obtain ⟨hmem, hnot⟩ := Cache.mem_clear he
    exact ⟨hmem, by simpa using hnot⟩

/-! ## Reading through the cache -/

theorem fetchCompiled_outcome {τ : Type} (db : Database τ) (q : Compiled) (s : Store τ) :
    (db.fetchCompiled q).outcome s = match s.cache.bind fun c => c.get? q.sql q.bindings with
      | some rows => (.ok rows, s)
      | none => match (db.client.fetch q.sql q.bindings).outcome s.connection with
        | (.ok rows, u) => (.ok rows,
            ⟨u, s.cache.map fun c => (c.put q.sql q.bindings q.tables rows).2⟩)
        | (.error e, u) => (.error e, ⟨u, s.cache⟩) := by
  rw [fetchCompiled, Attempt.outcome_bind]
  simp only [Attempt.outcome_get]
  cases s.cache.bind fun c => c.get? q.sql q.bindings with
  | some rows => rfl
  | none =>
    simp only [Attempt.outcome_bind, outcome_onConnection]
    rcases (db.client.fetch q.sql q.bindings).outcome s.connection with ⟨_ | rows, u⟩ <;> rfl

/-- The client answers a statement that reads on both connections alike. -/
theorem fetch_audited {db : Database σ} (hclient : db.client.IsStore view contents reads writes)
    {q : Compiled} (hq : reads q) {s : σ} {t : σ × Bool} (hst : view s = view t.1) :
    ((db.audited.client.fetch q.sql q.bindings).outcome t).1 =
        ((db.client.fetch q.sql q.bindings).outcome s).1 ∧
      view ((db.audited.client.fetch q.sql q.bindings).outcome t).2.1 =
        view ((db.client.fetch q.sql q.bindings).outcome s).2 := by
  obtain ⟨t, failed⟩ := t
  have hread := hclient.read q hq
  change ((db.client.fetch q.sql q.bindings).audited.outcome (t, failed)).1 = _ ∧
    view ((db.client.fetch q.sql q.bindings).audited.outcome (t, failed)).2.1 = _
  rw [Attempt.outcome_audited]
  refine ⟨hread.answer t s fun table _ => by rw [hst], ?_⟩
  rw [hread.unchanged, hread.unchanged]
  exact hst.symm

theorem attempts_fetchCompiled {db : Database σ}
    (hclient : db.client.IsStore view contents reads writes) (hkeys : Cache.Distinguishes reads)
    {q : Compiled} (hq : reads q) :
    (coupling db.client view reads).Attempts given (fun _ => True) (db.fetchCompiled q)
      (db.audited.fetchCompiled q) := by
  constructor
  · intro t ht
    have hcall := stays_onConnection (db.client.fetch q.sql q.bindings) t ht
    rw [outcome_onConnection] at hcall
    show ((db.audited.fetchCompiled q).outcome t).2.connection.2 = true
    rw [fetchCompiled_outcome]
    cases t.cache.bind fun c => c.get? q.sql q.bindings with
    | some rows => exact ht
    | none =>
      change ((db.audited.client.fetch q.sql q.bindings).outcome t.connection).2.2 = true at hcall
      rcases h : (db.audited.client.fetch q.sql q.bindings).outcome t.connection with ⟨_ | x, u⟩ <;>
        rwa [h] at hcall
  · rintro - s t ⟨hview, hcache, hfresh⟩ -
    have hread := hclient.read q hq
    obtain ⟨hanswer, hnext⟩ := fetch_audited hclient hq hview
    have hleft := hread.unchanged s.connection
    have hstill : Store.Fresh db.client reads
        ⟨((db.client.fetch q.sql q.bindings).outcome s.connection).2, s.cache⟩ := by
      refine hfresh.of_others hclient [] (fun table _ => by rw [hleft]) ?_
      exact fun c hc => ⟨c, hc, fun e he => ⟨he, by simp⟩⟩
    rw [fetchCompiled_outcome, fetchCompiled_outcome, hcache]
    rcases ht : (db.audited.client.fetch q.sql q.bindings).outcome t.connection with ⟨r, t'⟩
    rw [ht] at hanswer hnext
    cases hfound : s.cache.bind fun c => c.get? q.sql q.bindings with
    | some rows =>
      rw [hfresh.found hkeys hq hfound] at hanswer
      obtain rfl : r = .ok rows := hanswer
      exact ⟨rfl, fun _ _ => trivial, hleft.symm.trans hnext.symm, rfl, hfresh⟩
    | none =>
      have hagain := hread.answer _ s.connection fun table _ => by rw [hleft]
      rcases hs : (db.client.fetch q.sql q.bindings).outcome s.connection with ⟨r', s'⟩
      rw [hs] at hanswer hnext hstill hagain
      obtain rfl : r = r' := hanswer
      cases r with
      | error e => exact ⟨rfl, (fun _ h => nomatch h), hnext.symm, rfl, hstill⟩
      | ok rows =>
        exact ⟨rfl, fun _ _ => trivial, hnext.symm, rfl, hstill.put hq hagain⟩

end Database

end QueryLoom
