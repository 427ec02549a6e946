import QueryLoom.Proofs.Chain.Run

/-!
# What holds of every chain

Names in a chain are identifiers, raw fragments hold no marker, bind keys are words of letters,
and no column is assigned twice. Every key of a filter is bound, to the value that was passed for
it, and to no other filter.
-/

set_option autoImplicit false

namespace QueryLoom

namespace Reference

def IsNamed (r : Reference) : Prop := IsIdentifier r.table ∧ IsIdentifier r.column

end Reference

namespace Chain

/-- The table and the operation of a chain stay those it was started with. -/
theorem step_head {tablePrefix : String} {c c' : Chain} (h : Step tablePrefix c c') :
    c'.table = c.table ∧ c'.operation = c.operation := by
  cases h with
  | selected hr => exact selecting_eq c _ ▸ ⟨rfl, rfl⟩
  | joined ht hon => exact joining_eq c _ ▸ ⟨rfl, rfl⟩
  | _ => exact ⟨rfl, rfl⟩

theorem run_head (tablePrefix : String) (c : Chain) (verbs : List Verb) :
    (c.run tablePrefix verbs).table = c.table ∧
      (c.run tablePrefix verbs).operation = c.operation := by
  refine run_invariant (I := fun c' => c'.table = c.table ∧ c'.operation = c.operation)
    (fun hstep hc => ?_) ⟨rfl, rfl⟩ verbs
  obtain ⟨htable, hoperation⟩ := step_head hstep
  exact ⟨htable.trans hc.1, hoperation.trans hc.2⟩

theorem run_start_head (tablePrefix : String) (operation : Operation) (table : String)
    (verbs : List Verb) :
    ((start operation table).run tablePrefix verbs).table = some table ∧
      ((start operation table).run tablePrefix verbs).operation = some operation :=
  run_head tablePrefix (start operation table) verbs

structure WellFormed (c : Chain) : Prop where
  table : ∀ t, c.table = some t → IsIdentifier t
  columns : ∀ e ∈ c.columns, IsIdentifier e.1 ∧ ∀ col ∈ e.2, IsIdentifier col
  filters : ∀ f ∈ c.filters, Reference.IsNamed ⟨f.table, f.column⟩ ∧
    ∀ k ∈ f.operand.keyList, BindKey.IsKey k
  joins : ∀ j ∈ c.joins, IsIdentifier j.table ∧ IsFragment j.condition
  sort : ∀ s, c.sort = some s → s.reference.IsNamed
  groupBy : ∀ r, c.groupBy = some r → r.IsNamed
  groupConcats : ∀ g ∈ c.groupConcats, IsFragment g.expr ∧ IsIdentifier g.label
  payload : ∀ e ∈ c.payload, IsIdentifier e.1
  payloadDistinct : (c.payload.map Prod.fst).Nodup

theorem start_wellFormed {operation : Operation} {table : String} (h : IsIdentifier table) :
    (start operation table).WellFormed := by
  constructor <;> simp [start, fresh, registerTable, h]

theorem registerTable_columns {c : Chain} {table : String}
    (hc : ∀ e ∈ c.columns, IsIdentifier e.1 ∧ ∀ col ∈ e.2, IsIdentifier col)
    (ht : IsIdentifier table) :
    ∀ e ∈ (c.registerTable table).columns, IsIdentifier e.1 ∧ ∀ col ∈ e.2, IsIdentifier col := by
  intro e he
  unfold registerTable at he
  split at he
  · exact hc e he
  · rcases List.mem_append.mp he with he | he
    · exact hc e he
    · rw [List.mem_singleton.mp he]
      exact ⟨ht, by simp⟩

theorem insertColumn_columns {r : Reference} (hr : r.IsNamed)
    {columns : List (String × List String)}
    (hc : ∀ e ∈ columns, IsIdentifier e.1 ∧ ∀ col ∈ e.2, IsIdentifier col) :
    ∀ e ∈ insertColumn r columns, IsIdentifier e.1 ∧ ∀ col ∈ e.2, IsIdentifier col := by
  induction columns with
  | nil => simp [insertColumn]
  | cons d columns ih =>
    obtain ⟨t, cols⟩ := d
    have hd := hc (t, cols) (by simp)
    have hrest : ∀ e ∈ columns, _ := fun e he => hc e (List.mem_cons_of_mem _ he)
    intro e he
    unfold insertColumn at he
    split at he
    · rcases List.mem_cons.mp he with rfl | he
      · refine ⟨hd.1, fun col hcol => ?_⟩
        split at hcol
        · exact hd.2 col hcol
        · rcases List.mem_append.mp hcol with hcol | hcol
          · exact hd.2 col hcol
          · rw [List.mem_singleton.mp hcol]
            exact hr.2
      · exact hrest e he
    · rcases List.mem_cons.mp he with rfl | he
      · exact hd
      · exact ih hrest e he

theorem step_wellFormed {tablePrefix : String} {c c' : Chain} (h : Step tablePrefix c c')
    (hc : c.WellFormed) : c'.WellFormed := by
  cases h with
  | bound => exact { hc with }
  | @filtered es connective op column r o hes hr ho =>
    refine { hc with filters := fun f hf => ?_ }
    rcases List.mem_append.mp hf with hf | hf
    · exact hc.filters f hf
    · rw [List.mem_singleton.mp hf]
      refine ⟨reference_isIdentifier hc.table hr, fun k hk => ?_⟩
      rw [show (filterOf connective op r o).operand.keyList = es.map Prod.fst from ho] at hk
      obtain ⟨e, he, rfl⟩ := List.mem_map.mp hk
      exact hes.isKey e he
  | @selected item r hr =>
    have hnamed := reference_isIdentifier hc.table hr
    rw [selecting_eq]
    exact { hc with
      columns := insertColumn_columns hnamed (registerTable_columns hc.columns hnamed.1) }
  | @joined j ht hon =>
    rw [joining_eq]
    refine { hc with columns := registerTable_columns hc.columns ht, joins := fun k hk => ?_ }
    rcases List.mem_append.mp hk with hk | hk
    · exact hc.joins k hk
    · rw [List.mem_singleton.mp hk]
      exact ⟨ht, hon⟩
  | sorted hr =>
    refine { hc with sort := fun s hs => ?_ }
    cases hs
    exact reference_isIdentifier hc.table hr
  | grouped hr =>
    refine { hc with groupBy := fun s hs => ?_ }
    cases hs
    exact reference_isIdentifier hc.table hr
  | concatenated he hl =>
    refine { hc with groupConcats := fun g hg => ?_ }
    rcases List.mem_append.mp hg with hg | hg
    · exact hc.groupConcats g hg
    · rw [List.mem_singleton.mp hg]
      exact ⟨he, hl⟩
  | limited => exact { hc with }
  | @assigned column v hcol _ _ =>
    refine { hc with
      payload := fun e he => ?_
      payloadDistinct := Bindings.nodup_put hc.payloadDistinct column v }
    rcases Bindings.mem_put he with hold | rfl
    · exact hc.payload e hold
    · exact hcol

theorem run_wellFormed {tablePrefix : String} {c : Chain} (h : c.WellFormed)
    (verbs : List Verb) : (c.run tablePrefix verbs).WellFormed :=
  run_invariant step_wellFormed h verbs

/-- What a program can come to: a chain that it has started, or the one that is left where a chain
was taken to be run, and then whatever verbs make of it. -/
inductive Reachable (tablePrefix : String) : Chain → Prop
  | started {name table : String} (operation : Operation)
      (h : Identifier.table tablePrefix name = .ok table) :
      Reachable tablePrefix (start operation table)
  | left : Reachable tablePrefix fresh
  | after {c : Chain} (h : Reachable tablePrefix c) (v : Verb) :
      Reachable tablePrefix (v.after tablePrefix c)

/-- A chain that no verb has worked on: one that was started, or the one that is left where a
chain was taken to be run. -/
inductive Initial (tablePrefix : String) : Chain → Prop
  | started {name table : String} (operation : Operation)
      (h : Identifier.table tablePrefix name = .ok table) :
      Initial tablePrefix (start operation table)
  | left : Initial tablePrefix fresh

theorem Initial.reachable {tablePrefix : String} {c : Chain} (h : Initial tablePrefix c) :
    Reachable tablePrefix c := by
  cases h with
  | started operation h => exact .started operation h
  | left => exact .left

theorem Initial.bare {tablePrefix : String} {c : Chain} (h : Initial tablePrefix c) :
    c.filters = [] ∧ c.bindings.entries = [] ∧ c.payload = [] := by
  cases h with
  | started => simp [start, fresh, registerTable]
  | left => exact ⟨rfl, rfl, rfl⟩

theorem fresh_wellFormed : fresh.WellFormed := by
  constructor <;> simp [fresh]

theorem Reachable.wellFormed {tablePrefix : String} {c : Chain}
    (h : Reachable tablePrefix c) : c.WellFormed := by
  induction h with
  | started operation h => exact start_wellFormed (Identifier.table_ok h)
  | left => exact fresh_wellFormed
  | after _ v ih => exact run_wellFormed ih [v]

theorem Reachable.run {tablePrefix : String} {c : Chain} (h : Reachable tablePrefix c)
    (verbs : List Verb) : Reachable tablePrefix (c.run tablePrefix verbs) := by
  induction verbs generalizing c with
  | nil => exact h
  | cons v verbs ih => exact ih (h.after v)

end Chain

end QueryLoom
