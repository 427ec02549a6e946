import Mathlib.Data.List.TakeWhile
import QueryLoom.Chain.Verb
import QueryLoom.Proofs.Attempt
import QueryLoom.Proofs.Chain.BindKey
import QueryLoom.Proofs.Identifier

/-!
# What verbs do to a chain

For each verb, its result and the chain that it leaves, failures included. A filter binds its
values one by one under fresh keys; if one of them is refused, those before it stay bound and are
stranded, for no filter has their keys.
-/

set_option autoImplicit false

namespace QueryLoom

def Operand.keyList : Operand → List String
  | .key k => [k]
  | .keys ks => ks
  | .null => []

/-- The values that a filter with this operator takes from a value: each item of a list, and
nothing from NULL where the operator can test for it. -/
def Value.operands (op : Operator) (v : Value) : List Value :=
  if v.isNull && op.nullTest?.isSome then []
  else match v with
    | .list items => items
    | v => [v]

def Value.isNested : Value → Bool
  | .list items => items.any Value.isList
  | _ => false

/-- What stays bound of a list that is refused: the items before the first that is a list. -/
def Value.stranded (op : Operator) : Value → List Value
  | .list items =>
    if !op.onlyNull && items.any Value.isList then items.takeWhile fun v => !v.isList else []
  | _ => []

theorem Value.stranded_eq_nil {v : Value} (h : v.isNested = false) (op : Operator) :
    v.stranded op = [] := by
  cases v with
  | list items =>
    rw [Value.isNested] at h
    simp [Value.stranded, h]
  | _ => rfl

inductive Operand.StandsFor (op : Operator) (b : Bindings) : Operand → Value → Prop
  | null (h : op.nullTest?.isSome = true) : StandsFor op b .null .null
  | key {k : String} {v : Value} (hop : op.onlyNull = false) (hlist : v.isList = false)
      (hnull : (v.isNull && op.nullTest?.isSome) = false) (hk : b.get? k = some v) :
      StandsFor op b (.key k) v
  | keys {ks : List String} {items : List Value} (hop : op.onlyNull = false)
      (hks : ks.map b.get? = items.map some) : StandsFor op b (.keys ks) (.list items)

/-- Entries that can be added to a map without a key being bound twice. -/
structure FreshEntries (b : Bindings) (es : List (String × Value)) : Prop where
  isKey : ∀ e ∈ es, BindKey.IsKey e.1
  nodup : (es.map Prod.fst).Nodup
  not_mem : ∀ e ∈ es, e.1 ∉ b.keys

theorem FreshEntries.nil (b : Bindings) : FreshEntries b [] :=
  ⟨by simp, by simp, by simp⟩

theorem FreshEntries.cons {b : Bindings} {seed : String} {v : Value}
    {es : List (String × Value)} (h : FreshEntries ⟨b.entries ++ [(BindKey.fresh b seed, v)]⟩ es) :
    FreshEntries b ((BindKey.fresh b seed, v) :: es) := by
  have hnot : BindKey.fresh b seed ∉ b.keys := by
    rw [← Bindings.contains_iff, BindKey.contains_fresh]
    decide
  have hold : ∀ e ∈ es, e.1 ∉ b.keys ∧ e.1 ≠ BindKey.fresh b seed := by
    intro e he
    simpa [Bindings.keys, not_or] using h.not_mem e he
  refine ⟨fun e he => ?_, ?_, fun e he => ?_⟩
  · rcases List.mem_cons.mp he with rfl | he
    · exact BindKey.fresh_isKey b seed
    · exact h.isKey e he
  · rw [List.map_cons, List.nodup_cons]
    refine ⟨fun hmem => ?_, h.nodup⟩
    obtain ⟨e, he, heq⟩ := List.mem_map.mp hmem
    exact (hold e he).2 heq
  · rcases List.mem_cons.mp he with rfl | he
    · exact hnot
    · exact (hold e he).1

/-- What was bound before keeps its value. -/
theorem FreshEntries.get?_old {b : Bindings} {es : List (String × Value)} (h : FreshEntries b es)
    {k : String} (hk : k ∈ b.keys) : (⟨b.entries ++ es⟩ : Bindings).get? k = b.get? k := by
  have hnew : k ∉ es.map Prod.fst := by
    intro hmem
    obtain ⟨e, he, rfl⟩ := List.mem_map.mp hmem
    exact h.not_mem e he hk
  rw [Bindings.get?_append, Bindings.get?_eq_none hnew, Option.or_none]

/-- The new keys look their own values up. -/
theorem FreshEntries.map_get? {b : Bindings} {es : List (String × Value)} (h : FreshEntries b es) :
    (es.map Prod.fst).map (⟨b.entries ++ es⟩ : Bindings).get? = (es.map Prod.snd).map some := by
  rw [← Bindings.map_get?_keys h.nodup]
  apply List.map_congr_left
  intro k hk
  have hold : k ∉ b.keys := by
    obtain ⟨e, he, rfl⟩ := List.mem_map.mp hk
    exact h.not_mem e he
  rw [Bindings.get?_append, Bindings.get?_eq_none hold, Option.none_or]

namespace Chain

def binding (c : Chain) (es : List (String × Value)) : Chain :=
  { c with bindings := ⟨c.bindings.entries ++ es⟩ }

@[simp] theorem binding_nil (c : Chain) : c.binding [] = c := by simp [binding]

@[simp] theorem binding_binding (c : Chain) (es fs : List (String × Value)) :
    (c.binding es).binding fs = c.binding (es ++ fs) := by simp [binding]

/-! ## Filters -/

theorem bind_outcome (seed : String) (v : Value) (c : Chain) :
    (bind seed v).outcome c = (.ok (BindKey.fresh c.bindings seed),
      c.binding [(BindKey.fresh c.bindings seed, v)]) := by
  simp only [bind, Attempt.outcome_bind, Attempt.outcome_get, Attempt.outcome_set,
    Attempt.outcome_pure, binding]
  rw [Bindings.insert_fresh v (BindKey.contains_fresh c.bindings seed)]

theorem bindItems_cons_outcome (seed : String) (v : Value) (vs : List Value) (c : Chain) :
    (bindItems seed (v :: vs)).outcome c =
      if v.isList then (.error (.usage .nestedList), c)
      else
        let key := BindKey.fresh c.bindings (seed ++ v.bare)
        let rest := (bindItems seed vs).outcome (c.binding [(key, v)])
        (rest.1.map (key :: ·), rest.2) := by
  rw [bindItems]
  by_cases hv : v.isList = true
  · simp [hv]
  · simp only [hv, Bool.false_eq_true, if_false, Attempt.outcome_bind, Attempt.outcome_pure,
      bind_outcome]
    rcases (bindItems seed vs).outcome _ with ⟨r, t⟩
    cases r <;> rfl

/-- The items before the first list are bound, and the whole list unless there is one. -/
theorem bindItems_spec (seed : String) (items : List Value) (c : Chain) :
    ∃ es, FreshEntries c.bindings es ∧ es.map Prod.snd = items.takeWhile (fun v => !v.isList) ∧
      (bindItems seed items).outcome c =
        (if items.any Value.isList then .error (.usage .nestedList) else .ok (es.map Prod.fst),
          c.binding es) := by
  induction items generalizing c with
  | nil => exact ⟨[], FreshEntries.nil _, rfl, by simp [bindItems]⟩
  | cons v vs ih =>
    rw [bindItems_cons_outcome]
    by_cases hv : v.isList = true
    · exact ⟨[], FreshEntries.nil _, by simp [hv], by simp [hv]⟩
    · obtain ⟨es, hes, hvals, hres⟩ :=
        ih (c.binding [(BindKey.fresh c.bindings (seed ++ v.bare), v)])
      refine ⟨_ :: es, FreshEntries.cons hes, by simp [hv, hvals], ?_⟩
      simp only [hv, hres, List.any_cons]
      cases vs.any Value.isList <;> simp [Except.map]

theorem bindOperand_spec (op : Operator) (seed : String) (v : Value) (c : Chain) :
    ∃ es, FreshEntries c.bindings es ∧
      ((∃ o : Operand, (bindOperand op seed v).outcome c = (.ok o, c.binding es) ∧
          o.keyList = es.map Prod.fst ∧ es.map Prod.snd = v.operands op ∧
          o.StandsFor op (c.binding es).bindings v ∧ v.isNested = false) ∨
        ∃ e, (bindOperand op seed v).outcome c = (.error e, c.binding es) ∧
          es.map Prod.snd = v.stranded op ∧
          (op.onlyNull = true ∧ v.isNull = false ∧ e = .usage (.operatorNeedsNull op) ∨
            v.isNested = true ∧ e = .usage .nestedList)) := by
  unfold bindOperand
  by_cases hnull : (v.isNull && op.nullTest?.isSome) = true
  · obtain ⟨hv, hop⟩ := Bool.and_eq_true_iff.mp hnull
    obtain rfl : v = .null := by cases v <;> simp_all [Value.isNull]
    refine ⟨[], FreshEntries.nil _, Or.inl ⟨.null, ?_, rfl, ?_, .null hop, rfl⟩⟩
    · simp [hnull]
    · simp [Value.operands, hnull]
  · simp only [hnull]
    by_cases honly : op.onlyNull = true
    · have hvalue : v.isNull = false := by
        have htests : op.nullTest?.isSome = true := by cases op <;> first | rfl | cases honly
        simpa [htests] using hnull
      refine ⟨[], FreshEntries.nil _, Or.inr ⟨_, by simp [honly], ?_, Or.inl ⟨honly, hvalue, rfl⟩⟩⟩
      cases v <;> simp [Value.stranded, honly]
    · rw [Bool.not_eq_true] at hnull honly
      by_cases hlist : ∃ items, v = .list items
      · obtain ⟨items, rfl⟩ := hlist
        obtain ⟨es, hes, hvals, hres⟩ := bindItems_spec seed items c
        refine ⟨es, hes, ?_⟩
        by_cases hnested : items.any Value.isList = true
        · refine Or.inr ⟨.usage .nestedList, ?_, ?_, Or.inr ⟨hnested, rfl⟩⟩
          · simp [honly, hres, hnested, Except.map]
          · simp [Value.stranded, honly, hnested, hvals]
        · have hall : items.takeWhile (fun v => !v.isList) = items :=
            List.takeWhile_eq_self_iff.mpr (by simpa using hnested)
          rw [hall] at hvals
          rw [Bool.not_eq_true] at hnested
          refine Or.inl ⟨.keys (es.map Prod.fst), ?_, rfl, ?_, .keys honly ?_, hnested⟩
          · simp [honly, hres, hnested, Except.map]
          · simp [Value.operands, Value.isNull, hvals]
          · rw [← hvals]
            exact hes.map_get?
      · have hes : FreshEntries c.bindings [(BindKey.fresh c.bindings seed, v)] :=
          FreshEntries.cons (FreshEntries.nil _)
        have hkey : (c.binding [(BindKey.fresh c.bindings seed, v)]).bindings.get?
            (BindKey.fresh c.bindings seed) = some v := by simpa [binding] using hes.map_get?
        have hscalar : v.isList = false := by cases v <;> simp_all [Value.isList]
        refine ⟨_, hes, Or.inl ⟨.key (BindKey.fresh c.bindings seed), ?_, rfl, ?_,
          .key honly hscalar hnull hkey, ?_⟩⟩
        · cases v <;> simp_all [bind_outcome, Except.map]
        · cases v <;> simp_all [Value.operands]
        · cases v <;> simp_all [Value.isNested]

def reference (c : Chain) (tablePrefix column : String) : Except Error Reference :=
  (ColumnRef.parse tablePrefix column).bind c.resolve

theorem reference_congr {tablePrefix : String} {c c' : Chain} (h : c'.table = c.table)
    (column : String) : c'.reference tablePrefix column = c.reference tablePrefix column := by
  have hresolve : c'.resolve = c.resolve := by
    funext ref
    simp only [resolve, requireTable, h]
  rw [reference, reference, hresolve]

/-- A reference has its column from the text, and its table from there or from the chain. -/
theorem reference_ok {c : Chain} {tablePrefix column : String} {r : Reference}
    (h : c.reference tablePrefix column = .ok r) :
    ∃ ref, ColumnRef.parse tablePrefix column = .ok ref ∧ r.column = ref.column ∧
      (ref.table = some r.table ∨ c.table = some r.table) := by
  unfold reference at h
  cases hparse : ColumnRef.parse tablePrefix column with
  | error e => simp [hparse, Except.bind] at h
  | ok ref =>
    refine ⟨ref, rfl, ?_⟩
    simp only [hparse, Except.bind, resolve] at h
    cases href : ref.table with
    | some t =>
      simp only [href, Except.ok.injEq] at h
      subst h
      exact ⟨rfl, Or.inl rfl⟩
    | none =>
      cases hc : c.table with
      | none => simp [href, requireTable, hc, Except.map] at h
      | some t =>
        simp only [href, requireTable, hc, Except.map, Except.ok.injEq] at h
        subst h
        exact ⟨rfl, Or.inr rfl⟩

theorem reference_column {c : Chain} {tablePrefix column : String} {r : Reference}
    (h : c.reference tablePrefix column = .ok r) : IsIdentifier r.column := by
  obtain ⟨ref, hparse, hcolumn, -⟩ := reference_ok h
  rw [hcolumn]
  exact (ColumnRef.parse_ok hparse).2

theorem reference_isIdentifier {c : Chain} (ht : ∀ t, c.table = some t → IsIdentifier t)
    {tablePrefix column : String} {r : Reference} (h : c.reference tablePrefix column = .ok r) :
    IsIdentifier r.table ∧ IsIdentifier r.column := by
  obtain ⟨ref, hparse, -, htable⟩ := reference_ok h
  exact ⟨htable.elim ((ColumnRef.parse_ok hparse).1 r.table) (ht r.table), reference_column h⟩

def filterOf (connective : Connective) (op : Operator) (r : Reference) (o : Operand) : Filter :=
  ⟨r.table, connective, r.column, if o = .null then op.nullTest?.getD op else op, o⟩

def bindSeed (connective : Connective) (r : Reference) : String :=
  r.table ++ connective.keyPart ++ r.column

def strandedBy (c : Chain) (tablePrefix column operator : String) (v : Value) : List Value :=
  match c.reference tablePrefix column, Operator.ofText? operator with
  | .ok _, some op => v.stranded op
  | _, _ => []

inductive FilterRefused (tablePrefix : String) (c : Chain) (column operator : String) (v : Value) :
    Error → Prop
  | reference {e : Error} (h : c.reference tablePrefix column = .error e) :
      FilterRefused tablePrefix c column operator v e
  | operator (h : Operator.ofText? operator = none) :
      FilterRefused tablePrefix c column operator v (.usage (.unsupportedOperator operator))
  | needsNull {op : Operator} (hop : Operator.ofText? operator = some op)
      (h : op.onlyNull = true) (hv : v.isNull = false) :
      FilterRefused tablePrefix c column operator v (.usage (.operatorNeedsNull op))
  | nested (h : v.isNested = true) :
      FilterRefused tablePrefix c column operator v (.usage .nestedList)

/-- A filter is refused before it binds anything, or binds its values first. -/
theorem addFilter_outcome (tablePrefix : String) (connective : Connective)
    (column operator : String) (v : Value) (c : Chain) :
    (∃ e, (addFilter tablePrefix connective column operator v).outcome c = (.error e, c) ∧
      (c.reference tablePrefix column = .error e ∨
        Operator.ofText? operator = none ∧ e = .usage (.unsupportedOperator operator))) ∨
    ∃ op r, Operator.ofText? operator = some op ∧ c.reference tablePrefix column = .ok r ∧
      (addFilter tablePrefix connective column operator v).outcome c =
        match (bindOperand op (bindSeed connective r) v).outcome c with
        | (.ok o, t) =>
          (.ok (), { t with filters := t.filters ++ [filterOf connective op r o] })
        | (.error e, t) => (.error e, t) := by
  unfold addFilter reference
  cases hparse : ColumnRef.parse tablePrefix column with
  | error e => exact Or.inl ⟨e, by simp [Attempt.outcome_bind], Or.inl rfl⟩
  | ok ref =>
    cases hop : Operator.ofText? operator with
    | none =>
      exact Or.inl ⟨.usage (.unsupportedOperator operator), by simp [Attempt.outcome_bind],
        Or.inr ⟨rfl, rfl⟩⟩
    | some op =>
      cases hres : c.resolve ref with
      | error e =>
        exact Or.inl ⟨e, by simp [Attempt.outcome_bind, hres],
          Or.inl (by simp [Except.bind, hres])⟩
      | ok r =>
        refine Or.inr ⟨op, r, rfl, by simp [Except.bind, hres], ?_⟩
        simp only [Attempt.outcome_bind, Attempt.outcome_ofExcept, Attempt.outcome_get,
          Attempt.outcome_pure, Attempt.outcome_modify, hres, bindSeed]
        rcases (bindOperand op _ v).outcome c with ⟨_ | _, t⟩ <;> rfl

/-- What a filter leaves behind: its values bound, and unless it was refused the filter. -/
theorem addFilter_spec (tablePrefix : String) (connective : Connective)
    (column operator : String) (v : Value) (c : Chain) :
    ∃ es, FreshEntries c.bindings es ∧
      ((∃ op r o, Operator.ofText? operator = some op ∧ c.reference tablePrefix column = .ok r ∧
          (addFilter tablePrefix connective column operator v).outcome c =
            (.ok (), { c.binding es with
              filters := c.filters ++ [filterOf connective op r o] }) ∧
          o.keyList = es.map Prod.fst ∧ es.map Prod.snd = v.operands op ∧
          o.StandsFor op (c.binding es).bindings v ∧ v.isNested = false) ∨
        ∃ e, (addFilter tablePrefix connective column operator v).outcome c =
            (.error e, c.binding es) ∧
          es.map Prod.snd = c.strandedBy tablePrefix column operator v ∧
          c.FilterRefused tablePrefix column operator v e) := by
  rcases addFilter_outcome tablePrefix connective column operator v c with
    ⟨e, herr, hrefused⟩ | ⟨op, r, hop, hr, hout⟩
  · refine ⟨[], FreshEntries.nil _, Or.inr ⟨e, by simpa using herr, ?_⟩⟩
    unfold strandedBy
    rcases hrefused with hr | ⟨hop, rfl⟩
    · exact ⟨by simp [hr], .reference hr⟩
    · exact ⟨by simp [hop], .operator hop⟩
  · obtain ⟨es, hes, hres⟩ := bindOperand_spec op (bindSeed connective r) v c
    refine ⟨es, hes, ?_⟩
    rcases hres with ⟨o, ho, hrest⟩ | ⟨e, he, hvals, hrefused⟩
    · exact Or.inl ⟨op, r, o, hop, hr, by rw [hout, ho]; rfl, hrest⟩
    · refine Or.inr ⟨e, by rw [hout, he], by simp [strandedBy, hop, hr, hvals], ?_⟩
      rcases hrefused with ⟨honly, hv, rfl⟩ | ⟨hnested, rfl⟩
      · exact .needsNull hop honly hv
      · exact .nested hnested

/-! ## The other verbs -/

/-- Only the columns of a chain are touched. -/
theorem registerTable_eq (c : Chain) (t : String) :
    c.registerTable t = { c with columns := (c.registerTable t).columns } := by
  unfold registerTable
  split <;> rfl

def selecting (c : Chain) (r : Reference) : Chain :=
  { c.registerTable r.table with columns := insertColumn r (c.registerTable r.table).columns }

theorem selecting_eq (c : Chain) (r : Reference) :
    c.selecting r = { c with columns := insertColumn r (c.registerTable r.table).columns } := by
  rw [selecting, registerTable_eq]

theorem selectColumn_outcome (tablePrefix item : String) (c : Chain) :
    (selectColumn tablePrefix item).outcome c =
      match c.reference tablePrefix item with
      | .ok r => (.ok (), c.selecting r)
      | .error e => (.error e, c) := by
  unfold selectColumn reference
  cases ColumnRef.parse tablePrefix item with
  | error e => simp [Attempt.outcome_bind, Except.bind]
  | ok ref =>
    simp only [Attempt.outcome_bind, Attempt.outcome_ofExcept, Attempt.outcome_get,
      Attempt.outcome_modify, Except.bind]
    cases c.resolve ref <;> rfl

theorem selectColumns_cons_outcome (tablePrefix item : String) (items : List String) (c : Chain) :
    (selectColumns tablePrefix (item :: items)).outcome c =
      match c.reference tablePrefix item with
      | .ok r => (selectColumns tablePrefix items).outcome (c.selecting r)
      | .error e => (.error e, c) := by
  rw [selectColumns, Attempt.outcome_bind, selectColumn_outcome]
  cases c.reference tablePrefix item <;> rfl

def joining (c : Chain) (j : Join) : Chain :=
  { c.registerTable j.table with joins := (c.registerTable j.table).joins ++ [j] }

theorem joining_eq (c : Chain) (j : Join) :
    c.joining j =
      { c with columns := (c.registerTable j.table).columns, joins := c.joins ++ [j] } := by
  rw [joining, registerTable_eq]

theorem addJoin_outcome (tablePrefix : String) (kind : JoinKind) (table condition : String) :
    (∃ e, ∀ c, (addJoin tablePrefix kind table condition).outcome c = (.error e, c)) ∨
    ∃ t on, IsIdentifier t ∧ IsFragment on ∧
      ∀ c, (addJoin tablePrefix kind table condition).outcome c =
        (.ok (), c.joining ⟨kind, t, on⟩) := by
  unfold addJoin
  cases ht : Identifier.table tablePrefix table with
  | error e => exact Or.inl ⟨e, fun c => by simp [Attempt.outcome_bind]⟩
  | ok t =>
    cases hon : Identifier.rawFragment "join condition" condition with
    | error e => exact Or.inl ⟨e, fun c => by simp [Attempt.outcome_bind]⟩
    | ok on =>
      refine Or.inr ⟨t, on, Identifier.table_ok ht, Identifier.rawFragment_ok hon, fun c => ?_⟩
      simp [Attempt.outcome_bind, joining]

theorem orderBy_outcome (tablePrefix column : String) (direction : Option Direction) (c : Chain) :
    (orderBy tablePrefix column direction).outcome c =
      match c.reference tablePrefix column with
      | .ok r => (.ok (), { c with sort := some ⟨r, direction.getD .desc⟩ })
      | .error e => (.error e, c) := by
  unfold orderBy reference
  cases ColumnRef.parse tablePrefix column with
  | error e => simp [Attempt.outcome_bind, Except.bind]
  | ok ref =>
    simp only [Attempt.outcome_bind, Attempt.outcome_ofExcept, Attempt.outcome_get,
      Attempt.outcome_modify, Except.bind]
    cases c.resolve ref <;> rfl

theorem setGroupBy_outcome (tablePrefix column : String) (c : Chain) :
    (setGroupBy tablePrefix column).outcome c =
      match c.reference tablePrefix column with
      | .ok r => (.ok (), { c with groupBy := some r })
      | .error e => (.error e, c) := by
  unfold setGroupBy reference
  cases ColumnRef.parse tablePrefix column with
  | error e => simp [Attempt.outcome_bind, Except.bind]
  | ok ref =>
    simp only [Attempt.outcome_bind, Attempt.outcome_ofExcept, Attempt.outcome_get,
      Attempt.outcome_modify, Except.bind]
    cases c.resolve ref <;> rfl

theorem addGroupConcat_outcome (expr label : String) :
    (∃ e, ∀ c, (addGroupConcat expr label).outcome c = (.error e, c)) ∨
    ∃ ex l, IsFragment ex ∧ IsIdentifier l ∧
      ∀ c : Chain, (addGroupConcat expr label).outcome c =
        (.ok (), { c with groupConcats := c.groupConcats ++ [⟨ex, l⟩] }) := by
  unfold addGroupConcat
  cases hex : Identifier.rawFragment "group_concat expression" expr with
  | error e => exact Or.inl ⟨e, fun c => by simp [Attempt.outcome_bind]⟩
  | ok ex =>
    cases hl : Identifier.column label with
    | error e => exact Or.inl ⟨e, fun c => by simp [Attempt.outcome_bind]⟩
    | ok l =>
      refine Or.inr ⟨ex, l, Identifier.rawFragment_ok hex, Identifier.column_ok hl, fun c => ?_⟩
      simp [Attempt.outcome_bind]

theorem assignColumns_cons_outcome (column : String) (v : Value) (rest : List (String × Value))
    (c : Chain) :
    (assignColumns ((column, v) :: rest)).outcome c =
      if column = "id" then (assignColumns rest).outcome c
      else if v.isList then (.error (.usage (.listAssigned column)), c)
      else (assignColumns rest).outcome { c with payload := Bindings.put column v c.payload } := by
  rw [assignColumns]
  by_cases hid : column = "id"
  · simp [hid]
  · by_cases hv : v.isList = true
    · simp [hid, hv]
    · simp [hid, hv, Attempt.outcome_bind]

/-- Assignments touch nothing but the payload. -/
theorem assignColumns_state (named : List (String × Value)) (c : Chain) :
    ∃ payload, ((assignColumns named).outcome c).2 = { c with payload } := by
  induction named generalizing c with
  | nil => exact ⟨c.payload, rfl⟩
  | cons e named ih =>
    obtain ⟨column, v⟩ := e
    rw [assignColumns_cons_outcome]
    split
    · exact ih c
    · split
      · exact ⟨c.payload, rfl⟩
      · obtain ⟨payload, hpayload⟩ := ih { c with payload := Bindings.put column v c.payload }
        exact ⟨payload, hpayload⟩

theorem assign_state (pairs : List (String × Value)) (c : Chain) :
    ∃ payload, ((assign pairs).outcome c).2 = { c with payload } := by
  unfold assign
  rw [Attempt.outcome_bind, Attempt.outcome_ofExcept]
  cases pairs.mapM fun p => (Identifier.column p.1).map fun c => (c, p.2) with
  | error e => exact ⟨c.payload, rfl⟩
  | ok named => exact assignColumns_state named c

end Chain

end QueryLoom
