import QueryLoom.Proofs.Chain.Invariant

/-!
# The values that a chain carries

Each accepted filter contributes the values that were passed to it, in the order of the calls.
The keys of the filters, looked up in the bindings of the chain, give these values back, and the
chain holds them whatever refused verbs have left bound beside them.
-/

set_option autoImplicit false

namespace QueryLoom

def Verb.operands : Verb → List Value
  | .filter _ _ operator value =>
    match Operator.ofText? operator with
    | some op => value.operands op
    | none => []
  | _ => []

def Verb.isFilter : Verb → Bool
  | .filter .. => true
  | _ => false

inductive Filter.Records (tablePrefix : String) (c : Chain) : Filter → Verb → Prop
  | call {connective : Connective} {column operator : String} {value : Value} {op : Operator}
      {r : Reference} {o : Operand} (hop : Operator.ofText? operator = some op)
      (hr : c.reference tablePrefix column = .ok r)
      (ho : o.StandsFor op c.bindings value) :
      Records tablePrefix c (Chain.filterOf connective op r o)
        (.filter connective column operator value)

namespace Chain

def stranded (tablePrefix : String) (c : Chain) : Verb → List Value
  | .filter _ column operator value => c.strandedBy tablePrefix column operator value
  | _ => []

def filterKeys (c : Chain) : List String := c.filters.flatMap fun f => f.operand.keyList

def acceptedValues (tablePrefix : String) : Chain → List Verb → List Value
  | _, [] => []
  | c, v :: vs =>
    (if v.accepted tablePrefix c then v.operands else []) ++
      acceptedValues tablePrefix (v.after tablePrefix c) vs

structure Keyed (c : Chain) (values : List Value) : Prop where
  boundOnce : c.bindings.keys.Nodup
  distinct : c.filterKeys.Nodup
  values : c.filterKeys.map c.bindings.get? = values.map some

theorem Keyed.mem_keys {c : Chain} {values : List Value} (h : c.Keyed values) {k : String}
    (hk : k ∈ c.filterKeys) : k ∈ c.bindings.keys := by
  have hsome : c.bindings.get? k ∈ values.map some := by
    rw [← h.values]
    exact List.mem_map_of_mem hk
  obtain ⟨v, -, hv⟩ := List.mem_map.mp hsome
  apply Classical.byContradiction
  intro hnot
  rw [show c.bindings.get? k = none from Bindings.get?_eq_none hnot] at hv
  cases hv

theorem start_keyed (operation : Operation) (table : String) :
    (start operation table).Keyed [] := by
  constructor <;> simp [start, fresh, registerTable, filterKeys, Bindings.keys]

theorem Initial.keyed {tablePrefix : String} {c : Chain} (h : Initial tablePrefix c) :
    c.Keyed [] := by
  obtain ⟨hfilters, hentries, -⟩ := h.bare
  constructor <;> simp [filterKeys, Bindings.keys, hfilters, hentries]

/-- Values of which no filter has the keys change nothing. -/
theorem Keyed.bound {c c' : Chain} {values : List Value} {es : List (String × Value)}
    (h : c.Keyed values) (hes : FreshEntries c.bindings es)
    (hbindings : c'.bindings = (c.binding es).bindings) (hfilters : c'.filters = c.filters) :
    c'.Keyed values := by
  have hkeys : c'.filterKeys = c.filterKeys := by rw [filterKeys, hfilters, filterKeys]
  refine ⟨?_, hkeys ▸ h.distinct, ?_⟩
  · rw [hbindings]
    simp only [binding, Bindings.keys, List.map_append]
    refine List.nodup_append.mpr ⟨h.boundOnce, hes.nodup, fun a ha b hb hab => ?_⟩
    obtain ⟨e, he, rfl⟩ := List.mem_map.mp hb
    exact hes.not_mem e he (hab ▸ ha)
  · rw [hbindings, hkeys, ← h.values]
    exact List.map_congr_left fun k hk => hes.get?_old (h.mem_keys hk)

/-- A filter adds its own keys behind those of the filters before it. -/
theorem Keyed.filtered {c c' : Chain} {values : List Value} {es : List (String × Value)}
    {f : Filter} (h : c.Keyed values) (hes : FreshEntries c.bindings es)
    (hbindings : c'.bindings = (c.binding es).bindings) (hfilters : c'.filters = c.filters ++ [f])
    (hf : f.operand.keyList = es.map Prod.fst) : c'.Keyed (values ++ es.map Prod.snd) := by
  have hbound : (c.binding es).Keyed values := h.bound hes rfl rfl
  have hkeys : c'.filterKeys = c.filterKeys ++ es.map Prod.fst := by
    simp [filterKeys, hfilters, hf]
  refine ⟨hbindings ▸ hbound.boundOnce, ?_, ?_⟩
  · rw [hkeys]
    refine List.nodup_append.mpr ⟨h.distinct, hes.nodup, fun a ha b hb hab => ?_⟩
    obtain ⟨e, he, rfl⟩ := List.mem_map.mp hb
    exact hes.not_mem e he (hab ▸ h.mem_keys ha)
  · rw [hkeys, hbindings, List.map_append, List.map_append]
    congr 1
    · exact hbound.values
    · exact hes.map_get?

/-! ## Verbs that bind nothing -/

/-- The chains differ only in what has no value in it. -/
structure SameData (c c' : Chain) : Prop where
  filters : c'.filters = c.filters
  bindings : c'.bindings = c.bindings
  payload : c'.payload = c.payload

theorem SameData.refl (c : Chain) : c.SameData c := ⟨rfl, rfl, rfl⟩

theorem SameData.trans {c c' c'' : Chain} (h : c.SameData c') (h' : c'.SameData c'') :
    c.SameData c'' :=
  ⟨h'.filters.trans h.filters, h'.bindings.trans h.bindings, h'.payload.trans h.payload⟩

theorem selectColumns_sameData (tablePrefix : String) (items : List String) (c : Chain) :
    c.SameData ((selectColumns tablePrefix items).outcome c).2 := by
  induction items generalizing c with
  | nil => exact .refl c
  | cons item items ih =>
    rw [selectColumns_cons_outcome]
    cases c.reference tablePrefix item with
    | error e => exact .refl c
    | ok r =>
      have hselecting : c.SameData (c.selecting r) := by
        rw [selecting_eq]
        exact ⟨rfl, rfl, rfl⟩
      exact hselecting.trans (ih (c.selecting r))

end Chain

def Verb.hasData : Verb → Bool
  | .filter .. => true
  | .assign _ => true
  | _ => false

theorem Verb.after_sameData (tablePrefix : String) {v : Verb} (c : Chain)
    (hv : v.hasData = false) : c.SameData (v.after tablePrefix c) := by
  unfold Verb.after
  cases v with
  | select list => exact Chain.selectColumns_sameData tablePrefix _ c
  | filter | assign => cases hv
  | join kind table condition =>
    rcases Chain.addJoin_outcome tablePrefix kind table condition with
      ⟨e, h⟩ | ⟨t, on, -, -, h⟩ <;> constructor <;> simp [Verb.apply, h, Chain.joining_eq]
  | orderBy column direction =>
    rw [Verb.apply, Chain.orderBy_outcome]
    cases c.reference tablePrefix column <;> exact ⟨rfl, rfl, rfl⟩
  | groupBy column =>
    rw [Verb.apply, Chain.setGroupBy_outcome]
    cases c.reference tablePrefix column <;> exact ⟨rfl, rfl, rfl⟩
  | groupConcat expr label =>
    rcases Chain.addGroupConcat_outcome expr label with ⟨e, h⟩ | ⟨ex, l, -, -, h⟩ <;>
      constructor <;> simp [Verb.apply, h]
  | limit l => exact ⟨rfl, rfl, rfl⟩

/-- Only filters touch the filters and the bindings of a chain. -/
theorem Verb.after_frame (tablePrefix : String) {v : Verb} (c : Chain)
    (hv : v.isFilter = false) :
    (v.after tablePrefix c).filters = c.filters ∧
      (v.after tablePrefix c).bindings = c.bindings := by
  cases hdata : v.hasData with
  | false =>
    obtain ⟨hfilters, hbindings, -⟩ := Verb.after_sameData tablePrefix c hdata
    exact ⟨hfilters, hbindings⟩
  | true =>
    cases v with
    | filter => cases hv
    | assign pairs =>
      obtain ⟨payload, hpayload⟩ := Chain.assign_state pairs c
      rw [Verb.after, Verb.apply, hpayload]
      exact ⟨rfl, rfl⟩
    | _ => cases hdata

theorem Verb.accepted_eq {tablePrefix : String} {v : Verb} {c c' : Chain} {r : Except Error Unit}
    (h : (v.apply tablePrefix).outcome c = (r, c')) : v.accepted tablePrefix c = r.isOk := by
  rw [Verb.accepted, h]

/-- A verb binds under fresh keys only. An accepted filter is recorded with these keys; what is
bound without a filter is stranded. -/
theorem Verb.after_cases (tablePrefix : String) (v : Verb) (c : Chain) :
    ∃ es, FreshEntries c.bindings es ∧
      (v.after tablePrefix c).bindings = (c.binding es).bindings ∧
      if (v.isFilter && v.accepted tablePrefix c) = true then
        es.map Prod.snd = v.operands ∧ c.stranded tablePrefix v = [] ∧
          ∃ f : Filter, (v.after tablePrefix c).filters = c.filters ++ [f] ∧
            f.operand.keyList = es.map Prod.fst ∧ f.Records tablePrefix (v.after tablePrefix c) v
      else es.map Prod.snd = c.stranded tablePrefix v ∧
        (v.after tablePrefix c).filters = c.filters := by
  cases hfilter : v.isFilter with
  | false =>
    obtain ⟨hfilters, hbindings⟩ := Verb.after_frame tablePrefix c hfilter
    have hnone : c.stranded tablePrefix v = [] := by
      cases v with
      | filter => cases hfilter
      | _ => rfl
    exact ⟨[], FreshEntries.nil _, by rw [hbindings, Chain.binding_nil], by simp [hfilters, hnone]⟩
  | true =>
    cases v with
    | filter connective column operator value =>
      obtain ⟨es, hes, hres⟩ := Chain.addFilter_spec tablePrefix connective column operator value c
      rcases hres with ⟨op, r, o, hop, hr, hout, hkeys, hvals, ho, hnested⟩ | ⟨e, hout, hvals, -⟩
      · have haccepted := Verb.accepted_eq (v := .filter connective column operator value) hout
        have hnone : c.stranded tablePrefix (.filter connective column operator value) = [] := by
          simp [Chain.stranded, Chain.strandedBy, hop, hr, Value.stranded_eq_nil hnested]
        refine ⟨es, hes, by rw [Verb.after, Verb.apply, hout], ?_⟩
        rw [haccepted, if_pos (by simp [Except.isOk, Except.toBool]), Verb.after, Verb.apply, hout]
        exact ⟨by simp [Verb.operands, hop, hvals], hnone, _, rfl, hkeys, .call hop hr ho⟩
      · have hrefused := Verb.accepted_eq (v := .filter connective column operator value) hout
        refine ⟨es, hes, by rw [Verb.after, Verb.apply, hout], ?_⟩
        rw [hrefused, if_neg (by simp [Except.isOk, Except.toBool]), Verb.after, Verb.apply, hout]
        exact ⟨hvals, rfl⟩
    | _ => cases hfilter

theorem Verb.operands_eq_nil {v : Verb} (h : v.isFilter = false) : v.operands = [] := by
  cases v with
  | filter => cases h
  | _ => rfl

namespace Chain

theorem after_keyed (tablePrefix : String) (v : Verb) {c : Chain} {values : List Value}
    (h : c.Keyed values) :
    (v.after tablePrefix c).Keyed
      (values ++ if v.accepted tablePrefix c then v.operands else []) := by
  obtain ⟨es, hes, hbindings, hcases⟩ := v.after_cases tablePrefix c
  by_cases hv : (v.isFilter && v.accepted tablePrefix c) = true
  · rw [if_pos hv] at hcases
    obtain ⟨hvals, -, f, hfilters, hf, -⟩ := hcases
    rw [if_pos (Bool.and_eq_true_iff.mp hv).2, ← hvals]
    exact h.filtered hes hbindings hfilters hf
  · rw [if_neg hv] at hcases
    have hnone : (if v.accepted tablePrefix c then v.operands else []) = [] := by
      cases hfilter : v.isFilter with
      | false => rw [Verb.operands_eq_nil hfilter, ite_self]
      | true => simp_all
    rw [hnone, List.append_nil]
    exact h.bound hes hbindings hcases.2

/-- After every run, the keys of the filters give back the accepted values in order. -/
theorem run_keyed (tablePrefix : String) {c : Chain} {values : List Value} (h : c.Keyed values)
    (verbs : List Verb) :
    (c.run tablePrefix verbs).Keyed (values ++ acceptedValues tablePrefix c verbs) := by
  induction verbs generalizing c values with
  | nil => simpa [acceptedValues, run] using h
  | cons v vs ih =>
    rw [acceptedValues, ← List.append_assoc]
    exact ih (after_keyed tablePrefix v h)

/-- Only assignments touch the payload of a chain. -/
theorem after_payload (tablePrefix : String) {v : Verb} (c : Chain)
    (hv : ∀ pairs, v ≠ .assign pairs) : (v.after tablePrefix c).payload = c.payload := by
  cases hdata : v.hasData with
  | false => exact (Verb.after_sameData tablePrefix c hdata).payload
  | true =>
    cases v with
    | filter connective column operator value =>
      obtain ⟨es, -, ⟨op, r, o, -, -, hout, -⟩ | ⟨e, hout, -⟩⟩ :=
        addFilter_spec tablePrefix connective column operator value c <;>
        rw [Verb.after, Verb.apply, hout] <;> rfl
    | assign pairs => exact absurd rfl (hv pairs)
    | _ => cases hdata

end Chain

end QueryLoom
