import QueryLoom.Chain.Compile
import QueryLoom.Proofs.Chain.Run

/-!
# The tables of a chain

A chain registers the table that it was started on, then every joined table and every table of
which a column is selected, and no other. So a second table takes part if and only if a join or a
selected column names one. A chain that is no SELECT has verbs that filter and assign only, and
these register nothing.
-/

set_option autoImplicit false

namespace QueryLoom

namespace Chain

def accompanied (c : Chain) (table : String) : Bool :=
  c.joins.any (fun j => j.table ≠ table) || c.selectedReferences.any fun r => r.table ≠ table

theorem accompanied_iff {c : Chain} {table : String} :
    c.accompanied table = true ↔
      (∃ j ∈ c.joins, j.table ≠ table) ∨ ∃ r ∈ c.selectedReferences, r.table ≠ table := by
  simp [accompanied]

theorem mem_selectedReferences {c : Chain} {r : Reference} :
    r ∈ c.selectedReferences ↔ ∃ e ∈ c.columns, e.1 = r.table ∧ r.column ∈ e.2 := by
  obtain ⟨table, column⟩ := r
  simp only [selectedReferences, List.mem_flatMap, List.mem_map]
  constructor
  · rintro ⟨e, he, column', hcolumn, heq⟩
    cases heq
    exact ⟨e, he, rfl, hcolumn⟩
  · rintro ⟨e, he, rfl, hcolumn⟩
    exact ⟨e, he, column, hcolumn, rfl⟩

def registered (c : Chain) : List String := c.columns.map Prod.fst

theorem isMultiTable_iff (c : Chain) : c.isMultiTable = true ↔ 1 < c.registered.length := by
  simp [isMultiTable, registered]

/-- The first table is that of the chain, none comes twice, and each has a reason to be there. -/
structure Registered (c : Chain) (table : String) : Prop where
  head : c.registered.head? = some table
  nodup : c.registered.Nodup
  joins : ∀ j ∈ c.joins, j.table ∈ c.registered
  reason : ∀ e ∈ c.columns, e.1 = table ∨ e.2 ≠ [] ∨ ∃ j ∈ c.joins, j.table = e.1

/-! ## Registering -/

/-- A table comes in behind the others, with no columns, unless it is there already. -/
theorem columns_registerTable (c : Chain) (table : String) :
    (c.registerTable table).columns =
      if table ∈ c.registered then c.columns else c.columns ++ [(table, [])] := by
  have hany : (c.columns.any fun e => e.1 == table) = true ↔ table ∈ c.registered := by
    simp [registered]
  unfold registerTable
  by_cases h : table ∈ c.registered
  · rw [if_pos (hany.mpr h), if_pos h]
  · rw [if_neg fun hc => h (hany.mp hc), if_neg h]

theorem registerTable_registered (c : Chain) (table : String) :
    (c.registerTable table).registered =
      if table ∈ c.registered then c.registered else c.registered ++ [table] := by
  rw [registered, columns_registerTable]
  split
  · rfl
  · simp [registered]

theorem mem_registerTable (c : Chain) (table : String) :
    table ∈ (c.registerTable table).registered := by
  rw [registerTable_registered]
  split
  · assumption
  · simp

theorem mem_registered_registerTable {c : Chain} {table other : String}
    (h : other ∈ c.registered) : other ∈ (c.registerTable table).registered := by
  rw [registerTable_registered]
  split
  · exact h
  · simp [h]

theorem nodup_registerTable {c : Chain} (h : c.registered.Nodup) (table : String) :
    (c.registerTable table).registered.Nodup := by
  rw [registerTable_registered]
  split
  · exact h
  · rename_i hnot
    refine List.nodup_append.mpr ⟨h, by simp, fun a ha b hb hab => hnot ?_⟩
    rw [← List.mem_singleton.mp hb, ← hab]
    exact ha

theorem head_registerTable {c : Chain} {table : String} (h : c.registered.head? = some table)
    (other : String) : (c.registerTable other).registered.head? = some table := by
  rw [registerTable_registered]
  split
  · exact h
  · simp [List.head?_append, h]

theorem mem_columns_registerTable {c : Chain} {table : String} {e : String × List String}
    (h : e ∈ (c.registerTable table).columns) : e ∈ c.columns ∨ e = (table, []) := by
  rw [columns_registerTable] at h
  split at h
  · exact Or.inl h
  · simpa using h

theorem insertColumn_registered (r : Reference) (columns : List (String × List String)) :
    (insertColumn r columns).map Prod.fst = columns.map Prod.fst := by
  induction columns with
  | nil => rfl
  | cons e columns ih =>
    obtain ⟨t, cols⟩ := e
    by_cases ht : t = r.table <;> simp [insertColumn, ht, ih]

/-- The table of the column is left with a column, the others as they were. -/
theorem mem_insertColumn {r : Reference} {columns : List (String × List String)}
    (hnodup : (columns.map Prod.fst).Nodup) {e : String × List String}
    (h : e ∈ insertColumn r columns) : e.2 ≠ [] ∨ (e ∈ columns ∧ e.1 ≠ r.table) := by
  induction columns with
  | nil => simp [insertColumn] at h
  | cons d columns ih =>
    obtain ⟨t, cols⟩ := d
    obtain ⟨hnew, hrest⟩ := List.nodup_cons.mp hnodup
    by_cases ht : t = r.table
    · rw [insertColumn, if_pos ht] at h
      rcases List.mem_cons.mp h with rfl | h
      · refine Or.inl ?_
        show (if cols.contains r.column then cols else cols ++ [r.column]) ≠ []
        split
        · rename_i hcol
          rintro rfl
          simp at hcol
        · simp
      · refine Or.inr ⟨List.mem_cons_of_mem _ h, fun heq => hnew ?_⟩
        exact List.mem_map.mpr ⟨e, h, heq.trans ht.symm⟩
    · rw [insertColumn, if_neg ht] at h
      rcases List.mem_cons.mp h with rfl | h
      · exact Or.inr ⟨List.mem_cons_self, ht⟩
      · exact (ih hrest h).imp_right fun ⟨hmem, hne⟩ => ⟨List.mem_cons_of_mem _ hmem, hne⟩

theorem selecting_registered (c : Chain) (r : Reference) :
    (c.selecting r).registered = (c.registerTable r.table).registered :=
  insertColumn_registered r _

theorem joining_registered (c : Chain) (j : Join) :
    (c.joining j).registered = (c.registerTable j.table).registered := rfl

/-! ## Steps -/

theorem start_registered (operation : Operation) (table : String) :
    (start operation table).Registered table := by
  constructor <;> simp [start, fresh, registerTable, registered]

theorem selecting_isRegistered {c : Chain} {table : String} (h : c.Registered table)
    (r : Reference) : (c.selecting r).Registered table := by
  have hnodup := nodup_registerTable h.nodup r.table
  have hjoins : (c.selecting r).joins = c.joins := by rw [selecting_eq]
  refine ⟨?_, ?_, fun j hj => ?_, fun e he => ?_⟩
  · rw [selecting_registered]
    exact head_registerTable h.head r.table
  · rw [selecting_registered]
    exact hnodup
  · rw [selecting_registered]
    exact mem_registered_registerTable (h.joins j (hjoins ▸ hj))
  · rw [hjoins]
    rcases mem_insertColumn hnodup he with hcols | ⟨hmem, hne⟩
    · exact Or.inr (Or.inl hcols)
    · rcases mem_columns_registerTable hmem with hold | rfl
      · exact h.reason e hold
      · exact absurd rfl hne

theorem joining_isRegistered {c : Chain} {table : String} (h : c.Registered table) (j : Join) :
    (c.joining j).Registered table := by
  have hjoins : (c.joining j).joins = c.joins ++ [j] := by rw [joining_eq]
  refine ⟨head_registerTable h.head j.table, nodup_registerTable h.nodup j.table,
    fun k hk => ?_, fun e he => ?_⟩
  · rw [joining_registered]
    rcases List.mem_append.mp (hjoins ▸ hk) with hk | hk
    · exact mem_registered_registerTable (h.joins k hk)
    · rw [List.mem_singleton.mp hk]
      exact mem_registerTable c j.table
  · rw [hjoins]
    rcases mem_columns_registerTable he with hold | rfl
    · refine (h.reason e hold).imp_right (Or.imp_right ?_)
      exact fun ⟨k, hk, heq⟩ => ⟨k, List.mem_append_left _ hk, heq⟩
    · exact Or.inr (Or.inr ⟨j, by simp, rfl⟩)

theorem step_registered {tablePrefix table : String} {c c' : Chain}
    (h : Step tablePrefix c c') (hc : c.Registered table) : c'.Registered table := by
  cases h with
  | selected hr => exact selecting_isRegistered hc _
  | joined ht hon => exact joining_isRegistered hc _
  | _ => exact ⟨hc.head, hc.nodup, hc.joins, hc.reason⟩

theorem run_registered (tablePrefix table : String) (operation : Operation) (verbs : List Verb) :
    ((start operation table).run tablePrefix verbs).Registered table :=
  run_invariant step_registered (start_registered operation table) verbs

/-- A second table takes part exactly if a join or a selected column names one. -/
theorem Registered.isMultiTable_eq {c : Chain} {table : String} (h : c.Registered table) :
    c.isMultiTable = c.accompanied table := by
  rw [Bool.eq_iff_iff, isMultiTable_iff, accompanied_iff]
  obtain ⟨others, hothers⟩ : ∃ others, c.registered = table :: others := by
    cases hr : c.registered with
    | nil => simpa [hr] using h.head
    | cons t others =>
      have hhead := h.head
      rw [hr] at hhead
      exact ⟨others, by rw [Option.some.inj hhead]⟩
  have hnodup := h.nodup
  rw [hothers, List.nodup_cons] at hnodup
  rw [hothers]
  constructor
  · intro hlength
    obtain ⟨other, hother⟩ : ∃ other, other ∈ others :=
      List.exists_mem_of_length_pos (by simpa using hlength)
    have hne : other ≠ table := fun heq => hnodup.1 (heq ▸ hother)
    obtain ⟨e, he, rfl⟩ : ∃ e ∈ c.columns, e.1 = other := by
      have hmem : other ∈ c.registered := hothers ▸ List.mem_cons_of_mem _ hother
      simpa [registered] using hmem
    rcases h.reason e he with heq | hcols | ⟨j, hj, heq⟩
    · exact absurd heq hne
    · obtain ⟨column, hcolumn⟩ := List.exists_mem_of_ne_nil _ hcols
      exact Or.inr ⟨⟨e.1, column⟩, mem_selectedReferences.mpr ⟨e, he, rfl, hcolumn⟩, hne⟩
    · exact Or.inl ⟨j, hj, heq ▸ hne⟩
  · intro hsecond
    obtain ⟨other, hmem, hne⟩ : ∃ other ∈ c.registered, other ≠ table := by
      rcases hsecond with ⟨j, hj, hne⟩ | ⟨r, hr, hne⟩
      · exact ⟨j.table, h.joins j hj, hne⟩
      · obtain ⟨e, he, heq, -⟩ := mem_selectedReferences.mp hr
        exact ⟨r.table, heq ▸ List.mem_map_of_mem he, hne⟩
    have hother : other ∈ others := by simpa [hothers, hne] using hmem
    have hpos := List.length_pos_of_mem hother
    simp only [List.length_cons]
    omega

/-! ## Chains that write -/

/-- Nothing but its own table has come into the chain, and nothing that only a SELECT has. -/
structure Lone (c : Chain) (table : String) : Prop where
  columns : c.columns = [(table, [])]
  joins : c.joins = []
  sort : c.sort = none
  groupBy : c.groupBy = none

theorem Lone.selectedReferences_eq {c : Chain} {table : String} (h : c.Lone table) :
    c.selectedReferences = [] := by simp [selectedReferences, h.columns]

theorem Lone.accompanied_eq {c : Chain} {table : String} (h : c.Lone table) :
    c.accompanied table = false := by simp [accompanied, h.joins, h.selectedReferences_eq]

theorem start_lone (operation : Operation) (table : String) :
    (start operation table).Lone table := ⟨rfl, rfl, rfl, rfl⟩

/-- A verb of a chain that writes adds at most a filter, bound values and a payload. -/
theorem after_lone {tablePrefix table : String} {c : Chain} (hc : c.Lone table)
    {operation : Operation} (hop : operation ≠ .select) {v : Verb}
    (hv : operation.allows v = true) : (v.after tablePrefix c).Lone table := by
  unfold Verb.after
  cases v with
  | filter connective column operator value =>
    obtain ⟨es, -, ⟨op, r, o, -, -, hout, -⟩ | ⟨e, hout, -⟩⟩ :=
      addFilter_spec tablePrefix connective column operator value c
    · rw [Verb.apply, hout]
      exact ⟨hc.columns, hc.joins, hc.sort, hc.groupBy⟩
    · rw [Verb.apply, hout]
      exact ⟨hc.columns, hc.joins, hc.sort, hc.groupBy⟩
  | assign pairs =>
    obtain ⟨payload, hpayload⟩ := assign_state pairs c
    rw [Verb.apply, hpayload]
    exact ⟨hc.columns, hc.joins, hc.sort, hc.groupBy⟩
  | select | join | orderBy | groupBy | groupConcat | limit =>
    cases operation with
    | select => exact absurd rfl hop
    | insert | update | delete => cases hv

theorem run_lone (tablePrefix : String) {table : String} {c : Chain} (hc : c.Lone table)
    {operation : Operation} (hop : operation ≠ .select) {verbs : List Verb}
    (hverbs : ∀ v ∈ verbs, operation.allows v = true) :
    (c.run tablePrefix verbs).Lone table := by
  induction verbs generalizing c with
  | nil => exact hc
  | cons v verbs ih =>
    exact ih (after_lone hc hop (hverbs v (by simp)))
      fun w hw => hverbs w (List.mem_cons_of_mem _ hw)

end Chain

end QueryLoom
