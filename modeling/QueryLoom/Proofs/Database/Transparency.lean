import QueryLoom.Proofs.Cache.Key
import QueryLoom.Proofs.Database.Desk

/-!
# The cache does not show

A program of requests gets the same replies with a cache as without one. Beside the desk with the
cache stands one without it, on a connection that notes failures; request by request both give
the same reply, as long as no call has failed, and their stores stay coupled.
-/

set_option autoImplicit false

namespace QueryLoom

namespace Database

open Coupling

variable {σ ω κ α : Type} {view : σ → ω} {contents : ω → String → κ} {db : Database σ}
  {requests : List Request} {given : Prop}

/-! ## Keys of the statements that read -/

theorem Reads.compiled {q : Compiled} (h : db.Reads requests q) :
    ∃ c : Chain, c.compile db.dialect = .ok q := by
  cases h with
  | findAll h hq => exact ⟨_, hq⟩
  | find h hc hq => exact ⟨_, hq⟩
  | row h hc hq => exact ⟨_, hq⟩

theorem Reads.collapsed {q : Compiled} (h : db.Reads requests q) :
    String.ofList (Text.collapse q.sql.toList) = q.sql := by
  obtain ⟨c, hq⟩ := h.compiled
  obtain ⟨table, s, -, -, -, hsql, -⟩ := Chain.compile_ok hq
  rw [hsql, String.toList_ofList, Text.collapse_collapse]

theorem reads_distinguished (hfinite : ∀ q, db.Reads requests q → q.bindings.IsFinite)
    (hcollision : ∀ q q', db.Reads requests q → db.Reads requests q' →
      Blake3.hexDigest (Text.Utf8.encode (Cache.keyText q.sql q.bindings)) =
        Blake3.hexDigest (Text.Utf8.encode (Cache.keyText q'.sql q'.bindings)) →
      Text.Utf8.encode (Cache.keyText q.sql q.bindings) =
        Text.Utf8.encode (Cache.keyText q'.sql q'.bindings)) :
    Cache.Distinguishes (db.Reads requests) := by
  intro q q' hq hq' hkey
  have htext := Text.Utf8.encode_injective (hcollision q q' hq hq' hkey)
  obtain ⟨hsql, hblur⟩ := (Cache.keyText_eq_iff _ _ _ _).mp htext
  rw [Bindings.blur_of_isFinite (hfinite q hq), Bindings.blur_of_isFinite (hfinite q' hq')] at hblur
  refine ⟨?_, hblur⟩
  rw [← hq.collapsed, hsql, hq'.collapsed]

/-! ## Desks -/

def Opened (db : Database σ) (requests : List Request) (table : String) : Prop :=
  ∃ name, .alter name ∈ requests ∧ db.tableName name = .ok table

def deskCoupling (db : Database σ) (view : σ → ω) (requests : List Request) :
    Coupling (Desk σ) (Desk (σ × Bool)) :=
  Desk.coupling (coupling db.client view (db.Reads requests)) (db.Opened requests)

section Serving

variable (hclient : db.client.IsStore view contents (db.Reads requests) (db.Writes requests))
  (hkeys : Cache.Distinguishes (db.Reads requests)) (enabled : Bool)

include hclient hkeys in
theorem attempts_find {c : Chain} {id : Value} (hc : ∀ c' q, db.oneRow c id = (.ok (), c') →
      c'.compile db.dialect = .ok q → db.Reads requests q) :
    (coupling db.client view (db.Reads requests)).Attempts given (fun _ => True)
      (c.withStore ((db.cached enabled).find id)) (c.withStore (db.audited.find id)) := by
  have hclient' : (db.cached enabled).client.IsStore view contents (db.Reads requests)
    (db.Writes requests) := hclient
  have hfirst : (db.cached enabled).oneRow c id = db.oneRow c id := rfl
  have hsecond : db.audited.oneRow c id = db.oneRow c id := rfl
  rw [withStore_find, withStore_find, hfirst, hsecond]
  rcases h : db.oneRow c id with ⟨e | _, c'⟩
  · exact attempts_throw e
  · refine attempts_seq (attempts_runSelect hclient' hkeys fun q hq => hc c' q h hq) fun f => ?_
    exact attempts_pure trivial

include hclient in
theorem attempts_createTable {name : String} {columns : List (String × String)}
    (hr : .createTable name columns ∈ requests) :
    (coupling db.client view (db.Reads requests)).Attempts given (fun _ => True)
      ((db.cached enabled).createTable name columns) (db.audited.createTable name columns) := by
  have hclient' : (db.cached enabled).client.IsStore view contents (db.Reads requests)
    (db.Writes requests) := hclient
  unfold createTable
  split
  · exact attempts_throw _
  · refine attempts_ofExcept_bind fun table ht => attempts_ofExcept_bind fun texts hc => ?_
    exact attempts_executeOn hclient' fun _ => .create hr ht hc

include hclient in
/-- Sessions look the same with a cache and without one. -/
theorem alongside : AlterSession.Alongside (coupling db.client view (db.Reads requests))
    (db.Writes requests) (db.cached enabled) db.audited := by
  have hclient' : (db.cached enabled).client.IsStore view contents (db.Reads requests)
    (db.Writes requests) := hclient
  exact ⟨rfl, rfl, attempts_executeOn hclient', attempts_describe hclient'⟩

include hclient hkeys in
/-- One request. -/
theorem simulates_serve {r : Request} (hr : r ∈ requests) :
    (deskCoupling db view requests).Simulates True (fun _ => True) ((db.cached enabled).serve r)
      (db.audited.serve r) := by
  have hclient' : (db.cached enabled).client.IsStore view contents (db.Reads requests)
    (db.Writes requests) := hclient
  cases r with
  | findAll c =>
    rw [serve, serve, withStore_findAll, withStore_findAll]
    exact Desk.simulates_attempt (attempts_runSelect hclient' hkeys fun q hq => .findAll hr hq) _
  | find c id =>
    exact Desk.simulates_attempt (attempts_find hclient hkeys enabled
      fun c' q hc hq => .find hr hc hq) _
  | row c =>
    exact Desk.simulates_attempt (attempts_find hclient hkeys enabled
      fun c' q hc hq => .row hr hc hq) _
  | query c =>
    rw [serve, serve, withStore_query, withStore_query]
    exact Desk.simulates_attempt (attempts_runMutation hclient'
      fun table q hop ht hq => .query hr hop hq ht) _
  | createTable name columns =>
    exact Desk.simulates_attempt (attempts_createTable hclient enabled hr) _
  | dropTable name =>
    refine Desk.simulates_attempt (attempts_ofExcept_bind fun table ht => ?_) _
    exact attempts_executeOn hclient' fun _ => .drop hr ht
  | truncateTable name =>
    refine Desk.simulates_attempt (attempts_ofExcept_bind fun table ht => ?_) _
    exact attempts_executeOn hclient' fun _ => .truncate hr ht
  | alter name =>
    refine Desk.simulates_begin (attempts_ofExcept_bind fun table ht => ?_)
    refine attempts_seq (attempts_describe hclient' table) fun snapshot => ?_
    exact attempts_pure ⟨name, hr, ht⟩
  | change i verb =>
    refine Desk.simulates_change i (AlterSession.attempts_apply (alongside hclient enabled) ?_)
    rintro table ⟨name, hname, ht⟩ sql b hsends
    exact .change hname ht hr hsends

include hclient hkeys in
/-- One request after the other. -/
theorem simulates_serveAll (rs : List Request) (hrs : ∀ r ∈ rs, r ∈ requests) :
    (deskCoupling db view requests).Simulates True (fun _ => True)
      ((db.cached enabled).serveAll rs) (db.audited.serveAll rs) := by
  induction rs with
  | nil => exact ⟨fun _ h => h, fun _ d d' h _ => ⟨rfl, trivial, h⟩⟩
  | cons r rs ih =>
    have hfirst := simulates_serve hclient hkeys enabled (hrs r (by simp))
    have hrest := ih fun r hr => hrs r (List.mem_cons_of_mem _ hr)
    refine ⟨fun d' hd' => hrest.stays _ (hfirst.stays d' hd'), fun _ d d' hrelated hend => ?_⟩
    have hmid : ¬ (deskCoupling db view requests).spoiled (db.audited.serve r d').2 :=
      fun hsp => hend (hrest.stays _ hsp)
    obtain ⟨hreply, -, hstep⟩ := hfirst.agrees trivial d d' hrelated hmid
    obtain ⟨hreplies, -, hlast⟩ := hrest.agrees trivial _ _ hstep hend
    exact ⟨congrArg₂ List.cons hreply hreplies, trivial, hlast⟩

include hclient hkeys in
theorem replies_audited {connection : σ} (hclean : db.NoCallFails requests connection) :
    (db.cached enabled).replies requests connection =
      db.audited.replies requests (connection, false) := by
  have hall := simulates_serveAll hclient hkeys enabled requests fun _ h => h
  refine (hall.agrees trivial _ _ ⟨rfl, by simp [openDesk], rfl, rfl, ?_⟩ ?_).1
  · intro c hc e he
    cases enabled <;> simp [openDesk, openStore, cached, Cache.empty] at hc
    subst hc
    cases he
  · show ¬ _ = true
    rw [hclean]
    decide

end Serving

/-- A program gets the same replies with a cache as without one: over a client that is a store for
the statements of the program, none of whose calls fails on the way, where the doubles that are
bound for reading are finite and the digest has no collision on what is read. -/
theorem replies_cached (db : Database σ) (view : σ → ω) (contents : ω → String → κ)
    (requests : List Request) (connection : σ)
    (hclient : db.client.IsStore view contents (db.Reads requests) (db.Writes requests))
    (hclean : db.NoCallFails requests connection)
    (hfinite : ∀ q, db.Reads requests q → q.bindings.IsFinite)
    (hcollision : ∀ q q', db.Reads requests q → db.Reads requests q' →
      Blake3.hexDigest (Text.Utf8.encode (Cache.keyText q.sql q.bindings)) =
        Blake3.hexDigest (Text.Utf8.encode (Cache.keyText q'.sql q'.bindings)) →
      Text.Utf8.encode (Cache.keyText q.sql q.bindings) =
        Text.Utf8.encode (Cache.keyText q'.sql q'.bindings)) :
    (db.cached true).replies requests connection =
      (db.cached false).replies requests connection := by
  have hkeys := reads_distinguished hfinite hcollision
  rw [replies_audited hclient hkeys true hclean, replies_audited hclient hkeys false hclean]

end Database

/-! ## A store of one table -/

structure Shelf where
  table : Table
  rows : List Record

namespace Shelf

def insertion (b : Bindings) (s : Shelf) : Shelf :=
  { s with rows := s.rows ++
      [⟨[("id", .int (Int64.ofNat (s.rows.length + 1))), ("name", (b.get? "name").getD .null)]⟩] }

def extension (s : Shelf) : Shelf :=
  { table := s.table.addColumn ⟨"age", "int", true, none, false, false, false, false, none⟩
    rows := s.rows.map fun r => r.push "age" .null }

def client : Client Shelf where
  fetch sql _ := do
    let s ← get
    return if sql = "SELECT * FROM users" then s.rows else []
  execute sql b := do
    if sql = "INSERT INTO users (name) VALUES (:name)" then
      modify (insertion b)
      return 1
    else if sql = "ALTER TABLE users ADD age INT" then
      modify extension
      return 0
    else return 0
  lastInsertId := do
    let s ← get
    return some (.int (Int64.ofNat s.rows.length))
  describeTable _ := do
    let s ← get
    return s.table

def contents (s : Shelf) (table : String) : Option Shelf := if table = "users" then some s else none

def database : Database Shelf := ⟨client, {}⟩

def initial : Shelf := ⟨⟨"users", [⟨"id", "int", false, none, true, false, true, false, none⟩,
  ⟨"name", "text", true, none, false, false, false, false, none⟩], none⟩, []⟩

def everyone : Chain := .start .select "users"

def newcomer : Chain := { Chain.start .insert "users" with payload := [("name", .text "Ada")] }

def visits : List Request :=
  [.findAll everyone, .query newcomer, .findAll everyone, .alter "users",
    .change 0 (.addColumn "age" "INT"), .findAll everyone]

theorem reads_eq {q : Compiled} (h : database.Reads visits q) :
    q = ⟨"SELECT * FROM users", .empty, .select, ["users"], false⟩ := by
  cases h with
  | findAll h hq =>
    obtain rfl : _ = everyone := by simpa [visits] using h
    exact Except.ok.inj (hq.symm.trans rfl)
  | find h => simp [visits] at h
  | row h => simp [visits] at h

theorem writes_table {table sql : String} {b : Bindings}
    (h : database.Writes visits table sql b) : table = "users" := by
  have hname : ∀ {name t : String}, .alter name ∈ visits → database.tableName name = .ok t →
      t = "users" := by
    intro name t h ht
    obtain rfl : name = "users" := by simpa [visits] using h
    exact Except.ok.inj (ht.symm.trans rfl)
  cases h with
  | query h hc hq ht =>
    obtain rfl : _ = newcomer := by simpa [visits] using h
    exact Option.some.inj (ht.symm.trans rfl)
  | create h => simp [visits] at h
  | drop h => simp [visits] at h
  | truncate h => simp [visits] at h
  | change h ht => exact hname h ht

theorem confined {α : Type} (a : Attempt Shelf α) : a.Confined id contents ["users"] := by
  refine ⟨fun s t h => by rw [show s = t from h], fun s t h => by rw [show s = t from h], ?_⟩
  intro s table ht
  have hne : table ≠ "users" := by simpa using ht
  rw [contents, contents, if_neg hne, if_neg hne]

theorem client_isStore :
    client.IsStore id contents (database.Reads visits) (database.Writes visits) where
  read q hq := by
    rw [reads_eq hq]
    refine ⟨fun _ => rfl, fun s t h => ?_⟩
    have hst : some s = some t := h "users" (by simp)
    rw [Option.some.inj hst]
  execute table sql b h := by
    rw [writes_table h]
    exact confined _
  fetch table sql b h := by
    rw [writes_table h]
    exact confined _
  lastInsertId := ⟨fun s t h => by rw [show s = t from h], fun s t h => h, fun _ _ _ => rfl⟩
  describe _ := ⟨fun s t h => by rw [show s = t from h], fun s t h => h, fun _ _ _ => rfl⟩

theorem replies_visits :
    (database.cached true).replies visits initial =
      (database.cached false).replies visits initial := by
  have hclean : database.NoCallFails visits initial := by
    unfold Database.NoCallFails
    decide +kernel
  refine Database.replies_cached database id contents visits initial client_isStore hclean ?_ ?_
  · intro q hq
    rw [reads_eq hq]
    exact fun e he => nomatch he
  · intro q q' hq hq' _
    rw [reads_eq hq, reads_eq hq']

end Shelf

end QueryLoom
