import QueryLoom.Proofs.Chain.Values
import QueryLoom.Proofs.Database.Desk
import QueryLoom.Proofs.Statement.Clauses
import QueryLoom.Proofs.Statement.Where
import QueryLoom.Scripted.Client

/-!
# Finding a row by its identifier

To find one row, the identifier is attached with AND behind the filters that the chain has already.
AND binds tighter than OR, so the identifier restricts the last run of the filters and no other: a
row that meets an earlier run is found whatever its identifier is.
-/

set_option autoImplicit false

namespace QueryLoom

open Condition

variable {σ : Type}

namespace Chain

def identifierKey (c : Chain) (table : String) : String :=
  BindKey.fresh c.bindings (bindSeed .and ⟨table, "id"⟩)

def identifierFilter (c : Chain) (table : String) : Filter :=
  ⟨table, .and, "id", .equal, .key (c.identifierKey table)⟩

def identifierTest (c : Chain) (table : String) : Test :=
  ⟨c.column (c.identifierFilter table), .equal, .placeholder (c.identifierKey table)⟩

def identified (c : Chain) (table : String) (id : Value) : Chain :=
  { c.binding [(c.identifierKey table, id)] with
    filters := c.filters ++ [c.identifierFilter table], limit := some .single }

theorem reference_id {c : Chain} {table : String} (ht : c.table = some table)
    (tablePrefix : String) : c.reference tablePrefix "id" = .ok ⟨table, "id"⟩ := by
  have hparse : ColumnRef.parse tablePrefix "id" = .ok ⟨none, "id"⟩ := rfl
  simp [reference, hparse, Except.bind, resolve, requireTable, ht, Except.map]

theorem bindOperand_scalar (op : Operator) (hop : op.onlyNull = false) (seed : String) {v : Value}
    (hnull : v.isNull = false) (hlist : v.isList = false) (c : Chain) :
    (bindOperand op seed v).outcome c =
      (.ok (.key (BindKey.fresh c.bindings seed)),
        c.binding [(BindKey.fresh c.bindings seed, v)]) := by
  unfold bindOperand
  simp only [hnull, hop, Bool.false_and]
  cases v <;> simp_all [bind_outcome, Except.map, Value.isList]

theorem addFilter_id {c : Chain} {table : String} (ht : c.table = some table)
    (tablePrefix : String) {id : Value} (hnull : id.isNull = false) (hlist : id.isList = false) :
    (addFilter tablePrefix .and "id" "=" id).outcome c =
      (.ok (), { c.binding [(c.identifierKey table, id)] with
        filters := c.filters ++ [c.identifierFilter table] }) := by
  have hequal : Operator.ofText? "=" = some .equal := by decide
  rcases addFilter_outcome tablePrefix .and "id" "=" id c with
    ⟨e, -, hr | ⟨hop, -⟩⟩ | ⟨op, r, hop, hr, hout⟩
  · rw [reference_id ht] at hr
    cases hr
  · rw [hequal] at hop
    cases hop
  · rw [hequal] at hop
    rw [reference_id ht] at hr
    cases hop
    cases hr
    rw [hout, bindOperand_scalar .equal rfl _ hnull hlist]
    rfl

/-! ## Its condition -/

theorem filterHolds_identified (c : Chain) (table : String) (id : Value) :
    (c.identified table id).filterHolds = c.filterHolds := rfl

/-- The runs before the last one go without the identifier. -/
theorem identified_holds (c : Chain) (table : String) (id : Value) (v : Test → Prop) :
    (c.identified table id).condition.holds v ↔
      (∃ run ∈ (Filter.runs c.filters).dropLast, ∀ f ∈ run, c.filterHolds v f) ∨
        (∀ f ∈ (Filter.runs c.filters).getLast?.getD [], c.filterHolds v f) ∧
          v (c.identifierTest table) := by
  have hfilters : (c.identified table id).filters = c.filters ++ [c.identifierFilter table] := rfl
  have hlast : c.filterHolds v (c.identifierFilter table) ↔ v (c.identifierTest table) := Iff.rfl
  rw [condition_holds, hfilters, Filter.runs_append _ rfl, filterHolds_identified]
  simp only [List.mem_append, List.mem_singleton, or_and_right, exists_or, exists_eq_left]
  refine or_congr_right ⟨fun h => ⟨fun f hf => h f (Or.inl hf), ?_⟩, fun ⟨h, hid⟩ f hf => ?_⟩
  · exact hlast.mp (h _ (Or.inr rfl))
  · rcases hf with hf | rfl
    · exact h f hf
    · exact hlast.mpr hid

/-- Where every test is true but one on a key that the filters do not have, the filters are true
that are no empty list. -/
theorem filterHolds_of_fresh (c : Chain) {k : String} {f : Filter} (hk : k ∉ f.operand.keyList)
    (hnonempty : f.operand ≠ .keys []) :
    c.filterHolds (fun t => t.right ≠ .placeholder k) f := by
  unfold filterHolds
  cases ho : f.operand with
  | key k' =>
    rw [ho] at hk
    simpa [Operand.keyList, eq_comm] using hk
  | null => simp
  | keys ks =>
    rw [ho] at hk hnonempty
    cases ks with
    | nil => exact absurd rfl hnonempty
    | cons k' ks =>
      refine ⟨k', List.mem_cons_self, fun h => hk ?_⟩
      obtain rfl : k' = k := by simpa using h
      exact List.mem_cons_self

theorem identifierKey_not_mem (c : Chain) (table : String) :
    c.identifierKey table ∉ c.bindings.keys := by
  rw [← Bindings.contains_iff, identifierKey, BindKey.contains_fresh]
  decide

/-- The condition asks for the identifier if and only if no earlier run can be met: each of them
has a filter that is never true. -/
theorem identified_restricts {c : Chain} {values : List Value} (hc : c.Keyed values)
    (table : String) (id : Value) :
    (∀ v, (c.identified table id).condition.holds v → v (c.identifierTest table)) ↔
      ∀ run ∈ (Filter.runs c.filters).dropLast, ∃ f ∈ run, f.operand = .keys [] := by
  simp only [identified_holds]
  constructor
  · intro hall run hrun
    apply Classical.byContradiction
    intro hnone
    refine hall (fun t => t.right ≠ .placeholder (c.identifierKey table))
      (Or.inl ⟨run, hrun, fun f hf => ?_⟩) rfl
    have hfilter : f ∈ c.filters := by
      rw [← Filter.flatten_runs c.filters]
      exact List.mem_flatten.mpr ⟨run, List.dropLast_subset _ hrun, hf⟩
    refine filterHolds_of_fresh c (fun hk => ?_) fun hempty => hnone ⟨f, hf, hempty⟩
    exact identifierKey_not_mem c table
      (hc.mem_keys (List.mem_flatMap.mpr ⟨f, hfilter, hk⟩))
  · rintro hempty v (⟨run, hrun, hholds⟩ | ⟨-, hid⟩)
    · obtain ⟨f, hf, hnone⟩ := hempty run hrun
      have hnever := hholds f hf
      simp [filterHolds, hnone] at hnever
    · exact hid

/-! ## Its statement -/

def collapsed (s : String) : String := String.ofList (Text.collapse s.toList)

theorem reads_collapsed {s : String} {φ : Condition} : Reads (collapsed s) φ ↔ Reads s φ := by
  rw [Reads, Reads, collapsed, String.toList_ofList, lex_collapse]

/-- The clause stands between what is before it and what is behind it. -/
theorem collapsed_selectStatement (c : Chain) (d : Dialect) (table : String)
    (hfilters : c.filters ≠ []) {l : Limit} (hlimit : c.limit = some l) :
    collapsed (c.selectStatement d table) =
      collapsed (c.selectHead d table) ++ " " ++ collapsed c.whereClause ++ " " ++
        collapsed (c.selectTail d) := by
  obtain ⟨front, hhead, hfront⟩ : ∃ front, (c.selectHead d table).toList = front ++ [' '] ∧
      Text.words front ≠ [] := by
    refine ⟨("SELECT " ++ c.selectList d ++ " FROM " ++ table ++ " " ++ c.joinClause).toList,
      by simp [selectHead], Text.words_ne_nil (c := 'S') (by simp) (by decide)⟩
  obtain ⟨back, htail, hback⟩ : ∃ back, (c.selectTail d).toList = ' ' :: back ∧
      Text.words back ≠ [] := by
    have hword : 'L' ∈ (d.limit l.offset l.count).toList := by
      cases d <;> cases l.count <;> simp [Dialect.limit]
    refine ⟨(c.groupByClause ++ " " ++ c.orderByClause ++ " " ++ c.limitClause d).toList,
      by simp [selectTail], Text.words_ne_nil (c := 'L') ?_ (by decide)⟩
    simp [limitClause, hlimit, hword]
  have hwhere : Text.words c.whereClause.toList ≠ [] := by
    refine Text.words_ne_nil (c := 'W') ?_ (by decide)
    unfold whereClause
    cases hf : c.filters with
    | nil => exact absurd hf hfilters
    | cons f fs => simp
  rw [selectStatement_eq]
  simp only [collapsed, String.toList_append, hhead, htail,
    Text.collapse_between hfront hwhere hback]
  simp [String.append_assoc]

theorem identified_compile {c : Chain} {table : String} (ht : c.table = some table)
    (hop : c.operation = some .select) (id : Value) (d : Dialect) :
    (c.identified table id).compile d = .ok
      ⟨collapsed ((c.identified table id).selectStatement d table),
        (c.identified table id).bindings, .select, table :: c.orderedJoins.map Join.table,
        true⟩ := by
  have hfiltered : (!(c.identified table id).filters.isEmpty) = true := by simp [identified]
  rw [compile_eq (c := c.identified table id) ht hop, hfiltered]
  rfl

theorem identified_get? (c : Chain) (table : String) (id : Value) :
    (c.identified table id).bindings.get? (c.identifierKey table) = some id := by
  change (⟨c.bindings.entries ++ [(c.identifierKey table, id)]⟩ : Bindings).get? _ = _
  rw [Bindings.get?_append, Bindings.get?_eq_none (c.identifierKey_not_mem table)]
  simp [Bindings.get?]

theorem identified_reachable {tablePrefix : String} {c : Chain} (h : Reachable tablePrefix c)
    {table : String} (ht : c.table = some table) {id : Value} (hnull : id.isNull = false)
    (hlist : id.isList = false) : Reachable tablePrefix (c.identified table id) := by
  have hafter : c.identified table id = (Verb.limit .single).after tablePrefix
      ((Verb.filter .and "id" "=" id).after tablePrefix c) := by
    simp only [Verb.after, Verb.apply, addFilter_id ht tablePrefix hnull hlist]
    rfl
  rw [hafter]
  exact (h.after _).after _

end Chain

namespace Database

open Chain (collapsed)

theorem oneRow_eq (db : Database σ) {c : Chain} {table : String} (ht : c.table = some table)
    {id : Value} (hnull : id.isNull = false) (hlist : id.isList = false) :
    db.oneRow c id = (.ok (), c.identified table id) := by
  rw [oneRow_some db c hnull, apply, Verb.apply, Chain.addFilter_id ht _ hnull hlist]
  rfl

/-- One statement is run, and its first row is the answer. -/
theorem withStore_find_eq (db : Database σ) {c : Chain} {table : String}
    (ht : c.table = some table) {id : Value} (hnull : id.isNull = false)
    (hlist : id.isList = false) {q : Compiled}
    (hq : (c.identified table id).compile db.dialect = .ok q) :
    c.withStore (db.find id) = (do
      let rows ← db.fetchCompiled q
      return rows.head?) := by
  have hrun : db.runSelect (c.identified table id) =
      db.fetchCompiled q >>= fun rows => pure (.one rows.head?) := by
    unfold runSelect
    rw [hq]
    rfl
  rw [withStore_find, oneRow_eq db ht hnull hlist]
  simp only [hrun, bind_assoc, pure_bind]
  congr 1
  funext rows
  cases rows <;> rfl

/-- To find a row in a SELECT chain runs a statement, in which the identifier is bound under a key
of its own. Its condition asks for what the filters so far ask for, with the identifier in the
last of their runs; so the row that is found has the identifier, whatever is true of the filters,
if and only if each earlier run has an empty list and can never be met. -/
theorem find_restricts (db : Database σ) {name table : String}
    (hname : db.tableName name = .ok table) (verbs : List Verb) {id : Value}
    (hnull : id.isNull = false) (hlist : id.isList = false) :
    let c := (Chain.start .select table).run db.config.tablePrefix verbs
    ∃ q φ,
      c.withStore (db.find id) = (do
        let rows ← db.fetchCompiled q
        return rows.head?) ∧
      q.bindings.get? (c.identifierKey table) = some id ∧
      c.identifierKey table ∉ c.bindings.keys ∧
      q.sql = collapsed (c.selectHead db.dialect table) ++ " " ++
        collapsed (c.identified table id).whereClause ++ " " ++
        collapsed ((c.identified table id).selectTail db.dialect) ∧
      (∀ ψ, Condition.Reads (collapsed (c.identified table id).whereClause) ψ ↔ ψ = φ) ∧
      (∀ v, φ.holds v ↔
        (∃ run ∈ (Filter.runs c.filters).dropLast, ∀ f ∈ run, c.filterHolds v f) ∨
          (∀ f ∈ (Filter.runs c.filters).getLast?.getD [], c.filterHolds v f) ∧
            v (c.identifierTest table)) ∧
      ((∀ v, φ.holds v → v (c.identifierTest table)) ↔
        ∀ run ∈ (Filter.runs c.filters).dropLast, ∃ f ∈ run, f.operand = .keys []) := by
  intro c
  obtain ⟨ht, hop⟩ := Chain.run_start_head db.config.tablePrefix .select table verbs
  have hreachable : Chain.Reachable db.config.tablePrefix c :=
    (Chain.Reachable.started .select hname).run verbs
  have hwellFormed := (Chain.identified_reachable hreachable ht hnull hlist).wellFormed
  have hkeyed := Chain.run_keyed db.config.tablePrefix (Chain.start_keyed .select table) verbs
  have hfilters : (c.identified table id).filters ≠ [] := by simp [Chain.identified]
  have hreads := Chain.reads_condition hwellFormed hfilters
  have hcompile := Chain.identified_compile ht hop id db.dialect
  refine ⟨_, (c.identified table id).condition, withStore_find_eq db ht hnull hlist hcompile,
    Chain.identified_get? c table id, Chain.identifierKey_not_mem c table, ?_, fun ψ => ?_,
    Chain.identified_holds c table id, Chain.identified_restricts hkeyed table id⟩
  · exact Chain.collapsed_selectStatement (c.identified table id) db.dialect table hfilters rfl
  · rw [Chain.reads_collapsed]
    exact ⟨fun hψ => hψ.unique hreads, fun h => h ▸ hreads⟩

end Database

/-! ## A row that is found without its identifier -/

namespace Script

def database : Database Script := ⟨client .mySql, {}⟩

def staffVerbs : List Verb :=
  [.filter .and "role" "=" (.text "admin"), .filter .or "active" "=" (.bool true)]

/-- An admin is found for any identifier. -/
theorem find_admin :
    database.tableName "users" = .ok "users" ∧ (Value.int 7).isNull = false ∧
      (Value.int 7).isList = false ∧
      ∃ q φ,
        ((Chain.start .select "users").run "" staffVerbs).withStore (database.find (.int 7)) =
          (do
            let rows ← database.fetchCompiled q
            return rows.head?) ∧
        q.sql = "SELECT * FROM users WHERE role = :usersandrole OR active = :usersoractive " ++
          "AND id = :usersandid LIMIT 1" ∧
        Condition.Reads ("WHERE role = :usersandrole OR active = :usersoractive " ++
          "AND id = :usersandid") φ ∧
        ¬ ∀ v, φ.holds v → v ⟨.column "id", .equal, .placeholder "usersandid"⟩ := by
  have hname : database.tableName "users" = .ok "users" := rfl
  have hnull : (Value.int 7).isNull = false := rfl
  have hlist : (Value.int 7).isList = false := rfl
  obtain ⟨q, φ, hfind, -, -, hsql, hreads, -, hrestricts⟩ :=
    Database.find_restricts database hname staffVerbs hnull hlist
  refine ⟨hname, hnull, hlist, q, φ, hfind, hsql.trans (by decide +kernel), ?_, fun hall => ?_⟩
  · have hclause : Chain.collapsed (((Chain.start .select "users").run "" staffVerbs).identified
        "users" (.int 7)).whereClause =
        "WHERE role = :usersandrole OR active = :usersoractive " ++ "AND id = :usersandid" := by
      decide +kernel
    rw [← hclause]
    exact (hreads φ).mpr rfl
  · have htest : ((Chain.start .select "users").run "" staffVerbs).identifierTest "users" =
        ⟨.column "id", .equal, .placeholder "usersandid"⟩ := by decide +kernel
    have hruns : (Filter.runs ((Chain.start .select "users").run "" staffVerbs).filters).dropLast =
        [[⟨"users", .and, "role", .equal, .key "usersandrole"⟩]] := by decide +kernel
    have hempty := hrestricts.mp (htest ▸ hall)
    change ∀ run ∈ (Filter.runs ((Chain.start .select "users").run "" staffVerbs).filters).dropLast,
      _ at hempty
    rw [hruns] at hempty
    simp at hempty

end Script

end QueryLoom
