import QueryLoom.Proofs.Chain.Run

/-!
# Outlines

The outline of a value says whether it is NULL, a scalar or a list, and of a list how many items it
has and which of them are lists. Verbs look at their values through this outline only: what a
run leaves, but for keys and bound values, is what the run of the outlined verbs leaves.
-/

set_option autoImplicit false

namespace QueryLoom

/-- One value for all that are told apart by nothing but their contents. -/
def Value.outline : Value → Value
  | .null => .null
  | .list items => .list (items.map fun v => if v.isList then .list [] else .null)
  | _ => .bool false

def Operand.outline : Operand → Operand
  | .key _ => .key ""
  | .keys ks => .keys (ks.map fun _ => "")
  | .null => .null

def Filter.outline (f : Filter) : Filter := { f with operand := f.operand.outline }

def Verb.outline : Verb → Verb
  | .filter connective column operator value => .filter connective column operator value.outline
  | .assign pairs => .assign (pairs.map fun p => (p.1, p.2.outline))
  | v => v

namespace Chain

def outline (c : Chain) : Chain :=
  { c with
    filters := c.filters.map Filter.outline
    payload := c.payload.map fun e => (e.1, .null)
    bindings := .empty }

theorem outline_binding (c : Chain) (es : List (String × Value)) :
    (c.binding es).outline = c.outline := rfl

theorem outline_outline (c : Chain) : c.outline.outline = c.outline := by
  have hfilter : ∀ f : Filter, f.outline.outline = f.outline := by
    rintro ⟨t, connective, column, op, o⟩
    cases o <;> simp [Filter.outline, Operand.outline]
  simp [outline, hfilter]

theorem outline_filters (c : Chain) (f : Filter) :
    outline { c with filters := c.filters ++ [f] } =
      { c.outline with filters := c.outline.filters ++ [f.outline] } := by
  simp [outline]

theorem reference_outline (c : Chain) (tablePrefix column : String) :
    c.outline.reference tablePrefix column = c.reference tablePrefix column := rfl

/-! ## Filters -/

theorem bindItems_outline {items items' : List Value}
    (h : items.map Value.isList = items'.map Value.isList) (seed seed' : String) (c c' : Chain) :
    ((bindItems seed items).outcome c).1.map (fun ks => ks.map fun _ => "") =
      ((bindItems seed' items').outcome c').1.map (fun ks => ks.map fun _ => "") := by
  induction items generalizing items' c c' with
  | nil =>
    obtain rfl : items' = [] := by simpa using h.symm
    simp [bindItems]
  | cons v vs ih =>
    cases items' with
    | nil => simp at h
    | cons v' vs' =>
      simp only [List.map_cons, List.cons.injEq] at h
      rw [bindItems_cons_outcome, bindItems_cons_outcome, h.1]
      split
      · rfl
      · have hrest := ih h.2
          (c.binding [(BindKey.fresh c.bindings (seed ++ v.bare), v)])
          (c'.binding [(BindKey.fresh c'.bindings (seed' ++ v'.bare), v')])
        simp only
        revert hrest
        rcases (bindItems seed vs).outcome _ with ⟨_ | ks, t⟩ <;>
          rcases (bindItems seed' vs').outcome _ with ⟨_ | ks', t'⟩ <;>
          simp +contextual [Except.map]

theorem isList_erased (v : Value) :
    (if v.isList then Value.list [] else .null).isList = v.isList := by
  cases v <;> rfl

theorem isNull_outline (v : Value) : v.outline.isNull = v.isNull := by cases v <;> rfl

theorem isList_outline (v : Value) : v.outline.isList = v.isList := by cases v <;> rfl

theorem bindOperand_outline (op : Operator) (seed seed' : String) (v : Value) (c c' : Chain) :
    ((bindOperand op seed' v.outline).outcome c').1.map Operand.outline =
      ((bindOperand op seed v).outcome c).1.map Operand.outline := by
  unfold bindOperand
  rw [isNull_outline]
  by_cases hnull : (v.isNull && op.nullTest?.isSome) = true
  · simp [hnull]
  · by_cases honly : op.onlyNull = true
    · simp [hnull, honly]
    · simp only [hnull, honly]
      cases v with
      | list items =>
        have hflags : (items.map fun v => if v.isList then Value.list [] else .null).map
            Value.isList = items.map Value.isList := by
          rw [List.map_map]
          exact List.map_congr_left fun v _ => isList_erased v
        have hitems := bindItems_outline hflags seed' seed c' c
        simp only [Value.outline]
        revert hitems
        simp only [Bool.false_eq_true, if_false, bind_pure_comp, Attempt.outcome_map]
        rcases (bindItems seed items).outcome c with ⟨_ | ks, t⟩ <;>
          rcases (bindItems seed' _).outcome c' with ⟨_ | ks', t'⟩ <;>
          simp +contextual [Except.map, Operand.outline]
      | _ => simp [Value.outline, bind_outcome, Except.map, Operand.outline]

theorem bindOperand_state (op : Operator) (seed : String) (v : Value) (c : Chain) :
    ∃ es, ((bindOperand op seed v).outcome c).2 = c.binding es := by
  obtain ⟨es, -, ⟨o, h, -⟩ | ⟨e, h, -⟩⟩ := bindOperand_spec op seed v c <;> exact ⟨es, by rw [h]⟩

theorem filterOf_outline (connective : Connective) (op : Operator) (r : Reference)
    {o o' : Operand} (h : o.outline = o'.outline) :
    (filterOf connective op r o).outline = (filterOf connective op r o').outline := by
  cases o <;> cases o' <;> simp_all [Operand.outline, filterOf, Filter.outline]

theorem addFilter_outline (tablePrefix : String) (connective : Connective)
    (column operator : String) (v : Value) (c : Chain) :
    ((addFilter tablePrefix connective column operator v.outline).outcome c.outline).2.outline =
      ((addFilter tablePrefix connective column operator v).outcome c).2.outline := by
  rcases addFilter_outcome tablePrefix connective column operator v c with
      ⟨e, hout, hrefused⟩ | ⟨op, r, hop, hr, hout⟩ <;>
    rcases addFilter_outcome tablePrefix connective column operator v.outline c.outline with
      ⟨e', hout', hrefused'⟩ | ⟨op', r', hop', hr', hout'⟩
  · rw [hout, hout', outline_outline]
  · rw [reference_outline] at hr'
    simp [hop', hr'] at hrefused
  · rw [reference_outline] at hrefused'
    simp [hop, hr] at hrefused'
  · rw [reference_outline, hr] at hr'
    rw [hop] at hop'
    cases hr'
    cases hop'
    have hresult := bindOperand_outline op (bindSeed connective r) (bindSeed connective r) v c
      c.outline
    obtain ⟨es, hes⟩ := bindOperand_state op (bindSeed connective r) v c
    obtain ⟨es', hes'⟩ := bindOperand_state op (bindSeed connective r) v.outline c.outline
    rw [hout, hout']
    rcases hrun : (bindOperand op (bindSeed connective r) v).outcome c with ⟨e | o, t⟩ <;>
      rcases hrun' : (bindOperand op (bindSeed connective r) v.outline).outcome c.outline with
        ⟨e' | o', t'⟩ <;>
      rw [hrun, hrun'] at hresult <;> rw [hrun] at hes <;> rw [hrun'] at hes' <;>
      subst hes hes'
    · exact outline_outline c
    · cases hresult
    · cases hresult
    · simp only [outline_filters, outline_binding, outline_outline]
      rw [filterOf_outline connective op r (Except.ok.inj hresult)]

/-! ## The other verbs -/

theorem selecting_outline (c : Chain) (r : Reference) :
    (c.selecting r).outline = c.outline.selecting r := by
  rw [selecting_eq, selecting_eq]
  unfold registerTable
  split <;> simp_all [outline]

theorem selectColumns_outline (tablePrefix : String) (items : List String) (c : Chain) :
    ((selectColumns tablePrefix items).outcome c.outline).2.outline =
      ((selectColumns tablePrefix items).outcome c).2.outline := by
  induction items generalizing c with
  | nil => exact outline_outline c
  | cons item items ih =>
    rw [selectColumns_cons_outcome, selectColumns_cons_outcome, reference_outline]
    cases c.reference tablePrefix item with
    | error e => exact outline_outline c
    | ok r =>
      simp only [← selecting_outline]
      exact ih (c.selecting r)

theorem joining_outline (c : Chain) (j : Join) : (c.joining j).outline = c.outline.joining j := by
  rw [joining_eq, joining_eq]
  unfold registerTable
  split <;> simp_all [outline]

theorem blank_put (column : String) (v : Value) (entries : List (String × Value)) :
    (Bindings.put column v entries).map (fun e => (e.1, Value.null)) =
      Bindings.put column .null (entries.map fun e => (e.1, Value.null)) := by
  induction entries with
  | nil => rfl
  | cons e entries ih =>
    by_cases he : e.1 = column <;> simp [Bindings.put, he, ih]

theorem assignColumns_outline (named : List (String × Value)) {c c' : Chain}
    (h : c.outline = c'.outline) :
    ((assignColumns (named.map fun p => (p.1, p.2.outline))).outcome c).2.outline =
      ((assignColumns named).outcome c').2.outline := by
  induction named generalizing c c' with
  | nil => exact h
  | cons e named ih =>
    obtain ⟨column, v⟩ := e
    rw [List.map_cons, assignColumns_cons_outcome, assignColumns_cons_outcome, isList_outline]
    split
    · exact ih h
    · split
      · exact h
      · refine ih ?_
        have hpayload := congrArg payload h
        have hput : ∀ (d : Chain) (w : Value),
            outline { d with payload := Bindings.put column w d.payload } =
              { d.outline with payload := Bindings.put column .null d.outline.payload } := by
          intro d w
          simp only [outline, blank_put]
        rw [hput, hput, h]

theorem mapM_outline (pairs : List (String × Value)) :
    ((pairs.map fun p => (p.1, p.2.outline)).mapM fun p =>
        (Identifier.column p.1).map fun c => (c, p.2)) =
      (pairs.mapM fun p => (Identifier.column p.1).map fun c => (c, p.2)).map
        fun named => named.map fun p => (p.1, p.2.outline) := by
  induction pairs with
  | nil => rfl
  | cons p pairs ih =>
    rw [List.map_cons, List.mapM_cons, List.mapM_cons, ih]
    cases Identifier.column p.1 with
    | error e => rfl
    | ok column =>
      cases pairs.mapM fun p => (Identifier.column p.1).map fun c => (c, p.2) <;> rfl

theorem assign_outline (pairs : List (String × Value)) (c : Chain) :
    ((assign (pairs.map fun p => (p.1, p.2.outline))).outcome c.outline).2.outline =
      ((assign pairs).outcome c).2.outline := by
  unfold assign
  rw [Attempt.outcome_bind, Attempt.outcome_bind, Attempt.outcome_ofExcept,
    Attempt.outcome_ofExcept, mapM_outline]
  cases pairs.mapM fun p => (Identifier.column p.1).map fun c => (c, p.2) with
  | error e => exact outline_outline c
  | ok named => exact assignColumns_outline named (outline_outline c)

end Chain

theorem Verb.after_outline (tablePrefix : String) (v : Verb) (c : Chain) :
    (v.outline.after tablePrefix c.outline).outline = (v.after tablePrefix c).outline := by
  unfold Verb.after
  cases v with
  | select list => exact Chain.selectColumns_outline tablePrefix _ c
  | filter connective column operator value =>
    exact Chain.addFilter_outline tablePrefix connective column operator value c
  | join kind table condition =>
    rcases Chain.addJoin_outcome tablePrefix kind table condition with
      ⟨e, h⟩ | ⟨t, on, -, -, h⟩
    · simp [Verb.outline, Verb.apply, h, Chain.outline_outline]
    · simp [Verb.outline, Verb.apply, h, ← Chain.joining_outline, Chain.outline_outline]
  | orderBy column direction =>
    simp only [Verb.outline, Verb.apply, Chain.orderBy_outcome, Chain.reference_outline]
    cases c.reference tablePrefix column with
    | error e => exact c.outline_outline
    | ok r => exact Chain.outline_outline { c with sort := some ⟨r, direction.getD .desc⟩ }
  | groupBy column =>
    simp only [Verb.outline, Verb.apply, Chain.setGroupBy_outcome, Chain.reference_outline]
    cases c.reference tablePrefix column with
    | error e => exact c.outline_outline
    | ok r => exact Chain.outline_outline { c with groupBy := some r }
  | groupConcat expr label =>
    rcases Chain.addGroupConcat_outcome expr label with ⟨e, h⟩ | ⟨ex, l, -, -, h⟩
    · simp [Verb.outline, Verb.apply, h, Chain.outline_outline]
    · simp only [Verb.outline, Verb.apply, h]
      exact Chain.outline_outline { c with groupConcats := c.groupConcats ++ [⟨ex, l⟩] }
  | limit l => exact Chain.outline_outline { c with limit := some l }
  | assign pairs => exact Chain.assign_outline pairs c

theorem Verb.outline_outline (v : Verb) : v.outline.outline = v.outline := by
  have hvalue : ∀ w : Value, w.outline.outline = w.outline := by
    intro w
    cases w with
    | list items => simp [Value.outline, Chain.isList_erased]
    | _ => rfl
  cases v <;> simp [Verb.outline, hvalue]

theorem Verb.after_outline_congr (tablePrefix : String) (v : Verb) {c c' : Chain}
    (h : c'.outline = c.outline) :
    (v.outline.after tablePrefix c').outline = (v.after tablePrefix c).outline := by
  rw [← Verb.after_outline, Verb.outline_outline, h, Verb.after_outline]

/-- Two runs that start alike and whose verbs have the same outlines end alike. -/
theorem Chain.run_outline (tablePrefix : String) {c c' : Chain} (h : c'.outline = c.outline)
    (verbs : List Verb) :
    (c'.run tablePrefix (verbs.map Verb.outline)).outline = (c.run tablePrefix verbs).outline := by
  induction verbs generalizing c c' with
  | nil => exact h
  | cons v vs ih => exact ih (v.after_outline_congr tablePrefix h)

end QueryLoom
