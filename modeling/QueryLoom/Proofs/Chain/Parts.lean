import QueryLoom.Proofs.Chain.Tables
import QueryLoom.Proofs.Statement.Clauses

/-!
# Verbs that do not meet

A chain has parts, and each verb works on one of them: what it finds there, and the table of the
chain, decides what it does, and it leaves every other part as it was. So the order of two verbs
matters only if they work on the same part, and the ways to interleave lists of verbs of different
parts all lead to the same chain.
-/

set_option autoImplicit false

namespace QueryLoom

/-- What the verbs of a chain work on. Joins bring tables in, as selected columns do. -/
inductive Part where
  | selection
  | filters
  | sort
  | groupBy
  | groupConcats
  | limit
  | payload
  deriving DecidableEq, Repr

def Verb.part : Verb → Part
  | .select _ => .selection
  | .join .. => .selection
  | .filter .. => .filters
  | .orderBy .. => .sort
  | .groupBy _ => .groupBy
  | .groupConcat .. => .groupConcats
  | .limit _ => .limit
  | .assign _ => .payload

/-- Both lists have the same verbs of each part, in the same order. -/
def Interleaved (vs ws : List Verb) : Prop :=
  ∀ p, vs.filter (fun v => v.part = p) = ws.filter fun v => v.part = p

namespace Chain

def only (c : Chain) (p : Part) : Chain :=
  let bare : Chain := { table := c.table, operation := c.operation }
  match p with
  | .selection => { bare with columns := c.columns, joins := c.joins }
  | .filters => { bare with filters := c.filters, bindings := c.bindings }
  | .sort => { bare with sort := c.sort }
  | .groupBy => { bare with groupBy := c.groupBy }
  | .groupConcats => { bare with groupConcats := c.groupConcats }
  | .limit => { bare with limit := c.limit }
  | .payload => { bare with payload := c.payload }

@[simp]
theorem only_table (c : Chain) (p : Part) : (c.only p).table = c.table := by cases p <;> rfl

/-- There is nothing more to a chain. -/
theorem ext_only {c c' : Chain} (h : ∀ p, c.only p = c'.only p) : c = c' := by
  have hselection := h .selection
  have hfilters := h .filters
  have hsort := h .sort
  have hgroupBy := h .groupBy
  have hgroupConcats := h .groupConcats
  have hlimit := h .limit
  have hpayload := h .payload
  cases c
  cases c'
  simp_all [only]

theorem only_resolve (c : Chain) (p : Part) : (c.only p).resolve = c.resolve := by
  funext r
  simp only [resolve, requireTable, only_table]

def graft (c : Chain) (p : Part) (c' : Chain) : Chain :=
  match p with
  | .selection => { c with columns := c'.columns, joins := c'.joins }
  | .filters => { c with filters := c'.filters, bindings := c'.bindings }
  | .sort => { c with sort := c'.sort }
  | .groupBy => { c with groupBy := c'.groupBy }
  | .groupConcats => { c with groupConcats := c'.groupConcats }
  | .limit => { c with limit := c'.limit }
  | .payload => { c with payload := c'.payload }

theorem only_graft {p q : Part} (hq : q ≠ p) (c c' : Chain) : (c.graft p c').only q = c.only q := by
  cases p <;> cases q <;> first | rfl | exact absurd rfl hq

/-! ## Attempts on a part -/

variable {α β : Type} {p : Part}

/-- The attempt does to a part of a chain what it does to the part alone, and nothing to another
part. -/
structure Within (p : Part) (a : Attempt Chain α) : Prop where
  own : ∀ c, a.outcome (c.only p) = ((a.outcome c).1, (a.outcome c).2.only p)
  other : ∀ q, q ≠ p → ∀ c, (a.outcome c).2.only q = c.only q

theorem within_pure (x : α) : Within p (pure x) := ⟨fun _ => rfl, fun _ _ _ => rfl⟩

theorem within_throw (e : Error) : Within p (throw e : Attempt Chain α) :=
  ⟨fun _ => rfl, fun _ _ _ => rfl⟩

theorem within_ofExcept (r : Except Error α) : Within p (ofExcept r : Attempt Chain α) :=
  ⟨fun _ => by simp, fun _ _ _ => by simp⟩

theorem Within.bind {a : Attempt Chain α} {f : α → Attempt Chain β} (ha : Within p a)
    (hf : ∀ x, Within p (f x)) : Within p (a >>= f) := by
  constructor
  · intro c
    rw [Attempt.outcome_bind, Attempt.outcome_bind, ha.own]
    rcases a.outcome c with ⟨_ | x, t⟩
    · rfl
    · exact (hf x).own t
  · intro q hq c
    have hfirst := ha.other q hq c
    rw [Attempt.outcome_bind]
    rcases h : a.outcome c with ⟨_ | x, t⟩
    · rw [h] at hfirst
      exact hfirst
    · rw [h] at hfirst
      exact ((hf x).other q hq t).trans hfirst

theorem Within.map {a : Attempt Chain α} (ha : Within p a) (f : α → β) : Within p (f <$> a) :=
  ⟨fun c => by simp [ha.own], fun q hq c => by simpa using ha.other q hq c⟩

theorem within_modify {f : Chain → Chain} (hown : ∀ c, f (c.only p) = (f c).only p)
    (hgraft : ∀ c, f c = c.graft p (f c)) : Within p (modify f : Attempt Chain PUnit) := by
  refine ⟨fun c => by simp [hown], fun q hq c => ?_⟩
  rw [Attempt.outcome_modify, hgraft, only_graft hq]

/-- Every part of a chain resolves references alike. -/
theorem within_resolve {k : Reference → Attempt Chain α} (ref : ColumnRef)
    (hk : ∀ r, Within p (k r)) :
    Within p (get >>= fun c => ofExcept (c.resolve ref) >>= k) := by
  have houtcome : ∀ c,
      (get >>= fun c => ofExcept (c.resolve ref) >>= k : Attempt Chain α).outcome c =
        (ofExcept (c.resolve ref) >>= k : Attempt Chain α).outcome c := fun _ => rfl
  constructor
  · intro c
    rw [houtcome, houtcome, only_resolve]
    exact ((within_ofExcept _).bind hk).own c
  · intro q hq c
    rw [houtcome]
    exact ((within_ofExcept _).bind hk).other q hq c

/-! ## Filters -/

theorem within_bindValue (seed : String) (v : Value) : Within .filters (Chain.bind seed v) := by
  constructor
  · intro c
    rw [bind_outcome, bind_outcome]
    rfl
  · intro q hq c
    rw [bind_outcome]
    exact only_graft hq c (c.binding [(BindKey.fresh c.bindings seed, v)])

theorem within_bindItems (seed : String) (items : List Value) :
    Within .filters (bindItems seed items) := by
  induction items with
  | nil => exact within_pure []
  | cons v items ih =>
    have hrest : Within .filters (do
        let key ← Chain.bind (seed ++ v.bare) v
        return key :: (← bindItems seed items)) :=
      (within_bindValue _ v).bind fun key => ih.bind fun keys => within_pure (key :: keys)
    rw [bindItems]
    split
    · exact (within_throw _).bind fun _ => hrest
    · exact hrest

theorem within_bindOperand (op : Operator) (seed : String) (v : Value) :
    Within .filters (bindOperand op seed v) := by
  have hitems : ∀ items, Within .filters (Operand.keys <$> bindItems seed items) := fun items =>
    (within_bindItems seed items).map Operand.keys
  have hvalue : ∀ v, Within .filters (Operand.key <$> Chain.bind seed v) := fun v =>
    (within_bindValue seed v).map Operand.key
  unfold bindOperand
  by_cases hnull : (v.isNull && op.nullTest?.isSome) = true
  · rw [if_pos hnull]
    exact within_pure Operand.null
  · rw [if_neg hnull]
    by_cases honly : op.onlyNull = true
    · simp only [honly, if_true]
      refine (within_throw _).bind fun _ => ?_
      cases v with
      | list items => exact hitems items
      | _ => exact hvalue _
    · simp only [honly]
      cases v with
      | list items => exact hitems items
      | _ => exact hvalue _

theorem within_addFilter (tablePrefix : String) (connective : Connective)
    (column operator : String) (v : Value) :
    Within .filters (addFilter tablePrefix connective column operator v) := by
  unfold addFilter
  refine (within_ofExcept _).bind fun ref => ?_
  split
  · rename_i op _
    refine within_resolve ref fun r => ?_
    exact (within_bindOperand op _ v).bind fun o => within_modify (fun _ => rfl) fun _ => rfl
  · exact ⟨fun _ => rfl, fun _ _ _ => rfl⟩

/-! ## The other verbs -/

/-- Of a chain, a new table sees the tables it has. -/
theorem registerTable_only_columns (c : Chain) (table : String) :
    ((c.only .selection).registerTable table).columns = (c.registerTable table).columns := by
  rw [columns_registerTable, columns_registerTable]
  rfl

theorem within_selectColumns (tablePrefix : String) (items : List String) :
    Within .selection (selectColumns tablePrefix items) := by
  induction items with
  | nil => exact within_pure ()
  | cons item items ih =>
    have hselecting : ∀ r,
        Within .selection (modify fun c => c.selecting r : Attempt Chain PUnit) := by
      intro r
      refine within_modify (fun c => ?_) fun c => ?_
      · rw [selecting_eq, selecting_eq, registerTable_only_columns]
        rfl
      · rw [selecting_eq]
        rfl
    have hitem : Within .selection (selectColumn tablePrefix item) :=
      (within_ofExcept _).bind fun ref => within_resolve ref hselecting
    exact hitem.bind fun _ => ih

theorem within_addJoin (tablePrefix : String) (kind : JoinKind) (table condition : String) :
    Within .selection (addJoin tablePrefix kind table condition) := by
  refine (within_ofExcept _).bind fun t => (within_ofExcept _).bind fun on => ?_
  refine within_modify (f := fun c => c.joining ⟨kind, t, on⟩) (fun c => ?_) fun c => ?_
  · rw [joining_eq, joining_eq, registerTable_only_columns]
    rfl
  · rw [joining_eq]
    rfl

theorem within_orderBy (tablePrefix column : String) (direction : Option Direction) :
    Within .sort (orderBy tablePrefix column direction) :=
  (within_ofExcept _).bind fun ref => within_resolve ref fun _ =>
    within_modify (fun _ => rfl) fun _ => rfl

theorem within_setGroupBy (tablePrefix column : String) :
    Within .groupBy (setGroupBy tablePrefix column) :=
  (within_ofExcept _).bind fun ref => within_resolve ref fun _ =>
    within_modify (fun _ => rfl) fun _ => rfl

theorem within_addGroupConcat (expr label : String) :
    Within .groupConcats (addGroupConcat expr label) :=
  (within_ofExcept _).bind fun _ => (within_ofExcept _).bind fun _ =>
    within_modify (fun _ => rfl) fun _ => rfl

theorem within_setLimit (l : Limit) : Within .limit (setLimit l) :=
  within_modify (fun _ => rfl) fun _ => rfl

theorem within_assignColumns (named : List (String × Value)) :
    Within .payload (assignColumns named) := by
  induction named with
  | nil => exact within_pure ()
  | cons e named ih =>
    obtain ⟨column, v⟩ := e
    have hput : Within .payload
        (modify fun c => { c with payload := Bindings.put column v c.payload } :
          Attempt Chain PUnit) := within_modify (fun _ => rfl) fun _ => rfl
    rw [assignColumns]
    split
    · split
      · exact (within_throw _).bind fun _ => hput.bind fun _ => ih
      · exact hput.bind fun _ => ih
    · exact ih

theorem within_assign (pairs : List (String × Value)) : Within .payload (assign pairs) :=
  (within_ofExcept _).bind within_assignColumns

end Chain

/-- A verb stays on its part, whether or not it succeeds. -/
theorem Verb.within_part (tablePrefix : String) (v : Verb) :
    Chain.Within v.part (v.apply tablePrefix) := by
  cases v with
  | select list => exact Chain.within_selectColumns tablePrefix _
  | filter connective column operator value =>
    exact Chain.within_addFilter tablePrefix connective column operator value
  | join kind table condition => exact Chain.within_addJoin tablePrefix kind table condition
  | orderBy column direction => exact Chain.within_orderBy tablePrefix column direction
  | groupBy column => exact Chain.within_setGroupBy tablePrefix column
  | groupConcat expr label => exact Chain.within_addGroupConcat expr label
  | limit l => exact Chain.within_setLimit l
  | assign pairs => exact Chain.within_assign pairs

namespace Chain

/-! ## Runs -/

/-- What a run makes of a part, the verbs of the part make of the part alone. -/
theorem run_only (tablePrefix : String) (c : Chain) (p : Part) (verbs : List Verb) :
    (c.run tablePrefix verbs).only p =
      (c.only p).run tablePrefix (verbs.filter fun v => v.part = p) := by
  induction verbs generalizing c with
  | nil => rfl
  | cons v verbs ih =>
    have hv := v.within_part tablePrefix
    rw [run, ih, List.filter_cons]
    by_cases hpart : v.part = p
    · subst hpart
      rw [if_pos (decide_eq_true rfl), run, Verb.after, Verb.after, hv.own]
    · rw [if_neg (by simpa using hpart), Verb.after, hv.other p (Ne.symm hpart)]

theorem run_eq_of_interleaved (tablePrefix : String) (c : Chain) {vs ws : List Verb}
    (h : Interleaved vs ws) : c.run tablePrefix vs = c.run tablePrefix ws :=
  ext_only fun p => by rw [run_only, run_only, h p]

/-- However verbs of different parts are interleaved, the chain compiles to the same statement with
the same values, tables and all, in every dialect; and a SELECT chain on a table does compile. -/
theorem compile_interleaved (tablePrefix : String) (c : Chain) {vs ws : List Verb}
    (h : Interleaved vs ws) (d : Dialect) :
    (c.run tablePrefix vs).compile d = (c.run tablePrefix ws).compile d ∧
      ∀ table, c.table = some table → c.operation = some .select →
        ∃ q, (c.run tablePrefix vs).compile d = .ok q ∧
          (c.run tablePrefix ws).compile d = .ok q := by
  rw [run_eq_of_interleaved tablePrefix c h]
  refine ⟨rfl, fun table htable hop => ?_⟩
  obtain ⟨htable', hop'⟩ := run_head tablePrefix c ws
  have hq := compile_eq (htable'.trans htable) (hop'.trans hop) d
  exact ⟨_, hq, hq⟩

/-- The filter comes before the join that makes its column need a table, or after it. -/
theorem search_interleaved :
    ∃ q, ((start .select "users").run ""
        [.filter .and "age" ">=" (.int 18), .limit .single, .select "name",
          .join .left "roles" "roles.id = users.role", .filter .or "email" "=" .null,
          .orderBy "age" none]).compile .postgres = .ok q ∧
      ((start .select "users").run ""
        [.select "name", .join .left "roles" "roles.id = users.role", .orderBy "age" none,
          .filter .and "age" ">=" (.int 18), .filter .or "email" "=" .null,
          .limit .single]).compile .postgres = .ok q :=
  (compile_interleaved "" _ (by intro p; cases p <;> rfl) .postgres).2 "users" rfl rfl

end Chain

end QueryLoom
