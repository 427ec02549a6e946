import Mathlib.Data.List.Induction
import Mathlib.Data.Set.Card
import QueryLoom.Cache

/-!
# The cache is what its log says

The calls on a cache are logged. An entry is live after a log if some call of the log stored it and
no later call has ended it, by storing rows under its key or by dropping one of its tables or all
there is. The live entries are the entries of the cache, each of them once, so all that the cache
answers can be read off the log.
-/

set_option autoImplicit false

namespace QueryLoom.Cache

inductive Call where
  | put (sql : String) (b : Bindings) (tables : List String) (rows : List Record)
  | clear (table : String)
  | clearAll
  | get (sql : String) (b : Bindings)
  | has (sql : String) (b : Bindings)

def step (c : Cache) : Call → Cache
  | .put sql b tables rows => (c.put sql b tables rows).2
  | .clear table => (c.clear table).2
  | .clearAll => .empty
  | .get _ _ => c
  | .has _ _ => c

def after (log : List Call) : Cache := log.foldl step .empty

def Call.Stores (e : Entry) : Call → Prop
  | .put sql b tables rows =>
    (StatementKind.detect sql).isCacheable = true ∧ e = ⟨key sql b, tables, rows⟩
  | .clear _ | .clearAll | .get _ _ | .has _ _ => False

def Call.Ends (e : Entry) : Call → Prop
  | .put sql b _ _ => (StatementKind.detect sql).isCacheable = true ∧ key sql b = e.key
  | .clear table => table ∈ e.tables
  | .clearAll => True
  | .get _ _ | .has _ _ => False

/-- A call has stored the entry, and none since then has ended it. -/
def Live (log : List Call) (e : Entry) : Prop :=
  ∃ earlier call later, log = earlier ++ call :: later ∧ call.Stores e ∧
    ∀ next ∈ later, ¬ next.Ends e

/-! ## One more call -/

section Step

variable {log : List Call} {call : Call} {c : Cache} {e : Entry} {sql table : String}
  {b : Bindings} {tables : List String} {rows : List Record}

theorem after_concat (log : List Call) (call : Call) :
    after (log ++ [call]) = (after log).step call := List.foldl_concat ..

theorem not_live_nil (e : Entry) : ¬ Live [] e := by
  rintro ⟨earlier, call, later, hlog, -⟩
  simp at hlog

/-- With one more call an entry is live if the call stores it, or if it was and is not ended. -/
theorem live_concat : Live (log ++ [call]) e ↔ call.Stores e ∨ (Live log e ∧ ¬ call.Ends e) := by
  constructor
  · rintro ⟨earlier, stored, later, hlog, hstores, hends⟩
    rcases List.eq_nil_or_concat later with rfl | ⟨later, last, rfl⟩
    · obtain ⟨-, hcall⟩ := List.append_inj' hlog rfl
      exact Or.inl ((List.cons.inj hcall).1 ▸ hstores)
    · have hlog' : log ++ [call] = (earlier ++ stored :: later) ++ [last] := by simpa using hlog
      obtain ⟨rfl, hcall⟩ := List.append_inj' hlog' rfl
      obtain rfl := (List.cons.inj hcall).1
      refine Or.inr ⟨⟨earlier, stored, later, rfl, hstores, fun next hnext => ?_⟩, ?_⟩
      · exact hends next (by simp [hnext])
      · exact hends call (by simp)
  · rintro (hstores | ⟨⟨earlier, stored, later, rfl, hstores, hends⟩, hnot⟩)
    · exact ⟨log, call, [], rfl, hstores, by simp⟩
    · refine ⟨earlier, stored, later ++ [call], by simp, hstores, fun next hnext => ?_⟩
      rcases List.mem_append.mp hnext with hlater | hlast
      · exact hends next hlater
      · obtain rfl := List.mem_singleton.mp hlast
        exact hnot

theorem put_of_not_cacheable (h : ¬ (StatementKind.detect sql).isCacheable = true) :
    c.put sql b tables rows = (false, c) := if_neg h

theorem put_of_cacheable (h : (StatementKind.detect sql).isCacheable = true) :
    c.put sql b tables rows = (true, c.insert ⟨key sql b, tables, rows⟩) := if_pos h

theorem mem_insert {e' : Entry} :
    e ∈ (c.insert e').entries ↔ e = e' ∨ (e ∈ c.entries ∧ e'.key ≠ e.key) := by
  rw [insert, List.mem_append, List.mem_singleton, List.mem_filter, bne_iff_ne, or_comm,
    ne_comm (a := e.key)]

/-- The entries after a call: what it stores, and what was there and is not ended. -/
theorem mem_step : e ∈ (c.step call).entries ↔ call.Stores e ∨ (e ∈ c.entries ∧ ¬ call.Ends e) := by
  cases call with
  | put sql b tables rows =>
    rw [step]
    by_cases hcacheable : (StatementKind.detect sql).isCacheable = true
    · rw [put_of_cacheable hcacheable, mem_insert]
      simp [Call.Stores, Call.Ends, hcacheable]
    · rw [put_of_not_cacheable hcacheable]
      simp [Call.Stores, Call.Ends, hcacheable]
  | clear table => simp [step, clear, Call.Stores, Call.Ends]
  | clearAll => simp [step, empty, Call.Stores, Call.Ends]
  | get | has => simp [step, Call.Stores, Call.Ends]

def KeysDistinct (c : Cache) : Prop := (c.entries.map Entry.key).Nodup

theorem KeysDistinct.filter (h : c.KeysDistinct) (p : Entry → Bool) :
    KeysDistinct ⟨c.entries.filter p⟩ :=
  List.Nodup.sublist (List.filter_sublist.map Entry.key) h

theorem KeysDistinct.insert (h : c.KeysDistinct) (e : Entry) : (c.insert e).KeysDistinct := by
  rw [KeysDistinct, Cache.insert, List.map_append, List.nodup_append]
  refine ⟨h.filter _, by simp, ?_⟩
  rintro k hk - (_ | ⟨_, ⟨⟩⟩)
  obtain ⟨old, hold, rfl⟩ := List.mem_map.mp hk
  simpa using (List.mem_filter.mp hold).2

theorem KeysDistinct.step (h : c.KeysDistinct) (call : Call) : (c.step call).KeysDistinct := by
  cases call with
  | put sql b tables rows =>
    rw [Cache.step]
    by_cases hcacheable : (StatementKind.detect sql).isCacheable = true
    · rw [put_of_cacheable hcacheable]
      exact h.insert _
    · rw [put_of_not_cacheable hcacheable]
      exact h
  | clear table => exact h.filter _
  | clearAll => exact List.nodup_nil
  | get | has => exact h

end Step

/-! ## A whole log -/

variable {log : List Call} {e : Entry}

theorem keysDistinct_after (log : List Call) : (after log).KeysDistinct := by
  induction log using List.reverseRecOn with
  | nil => exact List.nodup_nil
  | append_singleton log call ih =>
    rw [after_concat]
    exact ih.step call

/-- The entries of the cache are the live ones. -/
theorem mem_after : e ∈ (after log).entries ↔ Live log e := by
  induction log using List.reverseRecOn with
  | nil => exact iff_of_false (by simp [after, empty]) (not_live_nil e)
  | append_singleton log call ih => rw [after_concat, mem_step, live_concat, ih]

/-- Under distinct keys an entry is found if and only if it is there. -/
theorem KeysDistinct.find?_eq_some {c : Cache} (h : c.KeysDistinct) {k : String} :
    c.find? k = some e ↔ e ∈ c.entries ∧ e.key = k := by
  constructor
  · intro hfound
    exact ⟨List.mem_of_find?_eq_some hfound, by simpa using List.find?_some hfound⟩
  · rintro ⟨hmem, rfl⟩
    have hsome : (c.find? e.key).isSome = true :=
      List.find?_isSome.mpr ⟨e, hmem, beq_self_eq_true e.key⟩
    obtain ⟨e', hfound⟩ := Option.isSome_iff_exists.mp hsome
    have hkey : e'.key = e.key := by simpa using List.find?_some hfound
    rw [hfound, List.inj_on_of_nodup_map h (List.mem_of_find?_eq_some hfound) hmem hkey]

/-- A list without repetitions is as long as the set of its members is large. -/
theorem encard_members {α : Type} {l : List α} (h : l.Nodup) :
    {a | a ∈ l}.encard = l.length := by
  classical
  rw [← List.coe_toFinset, Set.encard_coe_eq_coe_finsetCard, List.toFinset_card_of_nodup h]

theorem contains_eq_isSome_get? (c : Cache) (sql : String) (b : Bindings) :
    c.contains sql b = (c.get? sql b).isSome := by
  rw [contains, get?, Option.isSome_map]

theorem put_fst (c : Cache) (sql : String) (b : Bindings) (tables : List String)
    (rows : List Record) :
    (c.put sql b tables rows).1 = (StatementKind.detect sql).isCacheable := by
  by_cases hcacheable : (StatementKind.detect sql).isCacheable = true
  · rw [put_of_cacheable hcacheable, hcacheable]
  · rw [put_of_not_cacheable hcacheable, Bool.eq_false_iff.mpr hcacheable]

theorem clear_fst (c : Cache) (table : String) :
    (c.clear table).1 = (c.entries.filter fun e => e.tables.contains table).length := by
  have hlength := List.length_eq_length_filter_add (l := c.entries)
    fun e => e.tables.contains table
  rw [clear]
  omega

theorem get?_after (log : List Call) (sql : String) (b : Bindings) (rows : List Record) :
    (after log).get? sql b = some rows ↔ ∃ tables, Live log ⟨key sql b, tables, rows⟩ := by
  rw [get?, Option.map_eq_some_iff]
  simp only [(keysDistinct_after log).find?_eq_some, mem_after]
  constructor
  · rintro ⟨⟨_, tables, _⟩, ⟨hlive, rfl⟩, rfl⟩
    exact ⟨tables, hlive⟩
  · rintro ⟨tables, hlive⟩
    exact ⟨_, ⟨hlive, rfl⟩, rfl⟩

theorem clear_after (log : List Call) (table : String) :
    (((after log).clear table).1 : ℕ∞) =
      {e : Entry | Live log e ∧ table ∈ e.tables}.encard := by
  have hlive : {e : Entry | Live log e ∧ table ∈ e.tables} =
      {e | e ∈ (after log).entries.filter fun e => e.tables.contains table} := by
    ext e
    simp [mem_after]
  rw [hlive, encard_members ((keysDistinct_after log).of_map.filter _), clear_fst]

theorem size_after (log : List Call) :
    ((after log).size : ℕ∞) = {k | ∃ e : Entry, Live log e ∧ e.key = k}.encard := by
  have hkeys : {k | ∃ e : Entry, Live log e ∧ e.key = k} =
      {k | k ∈ (after log).entries.map Entry.key} := by
    ext k
    simp [mem_after]
  rw [hkeys, encard_members (keysDistinct_after log), List.length_map, size]

/-- What the cache answers after any calls. Rows are found if and only if the last call that stored
rows under the key stored these, and since then neither everything nor one of the tables of that
call was cleared. A statement is there if rows are found for it. Storing succeeds for statements
that read, and otherwise changes nothing. Clearing a table counts the live entries with the table,
and the size counts the keys of live entries. -/
theorem matches_log (log : List Call) :
    (∀ sql b rows, (after log).get? sql b = some rows ↔
      ∃ tables, Live log ⟨key sql b, tables, rows⟩) ∧
    (∀ sql b, (after log).contains sql b = ((after log).get? sql b).isSome) ∧
    (∀ sql b tables rows,
      ((after log).put sql b tables rows).1 = (StatementKind.detect sql).isCacheable ∧
      ((StatementKind.detect sql).isCacheable = false →
        after (log ++ [.put sql b tables rows]) = after log)) ∧
    (∀ table, (((after log).clear table).1 : ℕ∞) =
      {e : Entry | Live log e ∧ table ∈ e.tables}.encard) ∧
    ((after log).size : ℕ∞) = {k | ∃ e : Entry, Live log e ∧ e.key = k}.encard := by
  refine ⟨get?_after log, contains_eq_isSome_get? (after log), fun sql b tables rows => ?_,
    clear_after log, size_after log⟩
  refine ⟨put_fst (after log) sql b tables rows, fun hnot => ?_⟩
  rw [after_concat, step, put_of_not_cacheable (Bool.eq_false_iff.mp hnot)]

end QueryLoom.Cache
