import QueryLoom.Proofs.Chain.Values

/-!
# What refused filters leave behind

A filter binds the items of a list one by one, and a list inside the list is refused only when it
is reached. The items before it stay bound, under keys that no filter has. In every other case a
refused filter leaves the chain as it was, so these are the only bound values without a filter.
-/

set_option autoImplicit false

namespace QueryLoom

theorem Value.stranded_ne_nil {op : Operator} {v : Value} :
    v.stranded op ≠ [] ↔ ∃ item items, op.onlyNull = false ∧ v = .list (item :: items) ∧
      item.isList = false ∧ items.any Value.isList = true := by
  cases v with
  | list items =>
    cases items with
    | nil => simp [Value.stranded]
    | cons item items =>
      have hbound : (Value.list (item :: items)).stranded op ≠ [] ↔
          op.onlyNull = false ∧ item.isList = false ∧ items.any Value.isList = true := by
        cases hitem : item.isList <;> simp [Value.stranded, hitem]
      rw [hbound]
      constructor
      · rintro ⟨honly, hitem, hnested⟩
        exact ⟨item, items, honly, rfl, hitem, hnested⟩
      · rintro ⟨_, _, honly, heq, hitem, hnested⟩
        cases heq
        exact ⟨honly, hitem, hnested⟩
  | _ => simp [Value.stranded]

namespace Chain

variable {tablePrefix : String} {c c' : Chain} {values : List Value} {es : List (String × Value)}

def orphans (c : Chain) : List (String × Value) :=
  c.bindings.entries.filter fun e => e.1 ∉ c.filterKeys

/-- What the filters and the bindings of a chain have to do with each other: the filters have their
keys in the order in which they were bound, and these values have no filter. -/
structure Accounted (c : Chain) (values : List Value) : Prop where
  used : (c.bindings.entries.filter fun e => e.1 ∈ c.filterKeys).map Prod.fst = c.filterKeys
  unused : c.orphans.map Prod.snd = values

theorem Accounted.mem_keys (h : c.Accounted values) {k : String} (hk : k ∈ c.filterKeys) :
    k ∈ c.bindings.keys := by
  rw [← h.used] at hk
  obtain ⟨e, he, rfl⟩ := List.mem_map.mp hk
  exact List.mem_map_of_mem (List.mem_filter.mp he).1

theorem Accounted.not_mem (h : c.Accounted values) (hes : FreshEntries c.bindings es) :
    ∀ e ∈ es, e.1 ∉ c.filterKeys :=
  fun e he hmem => hes.not_mem e he (h.mem_keys hmem)

theorem Initial.accounted (h : Initial tablePrefix c) : c.Accounted [] := by
  obtain ⟨hfilters, hentries, -⟩ := h.bare
  constructor <;> simp [orphans, filterKeys, hfilters, hentries]

/-- Values that are bound without a filter are orphans. -/
theorem Accounted.bound (h : c.Accounted values) (hes : FreshEntries c.bindings es)
    (hbindings : c'.bindings = (c.binding es).bindings) (hfilters : c'.filters = c.filters) :
    c'.Accounted (values ++ es.map Prod.snd) := by
  have hkeys : c'.filterKeys = c.filterKeys := by rw [filterKeys, hfilters, filterKeys]
  have hnew := h.not_mem hes
  have hnone : es.filter (fun e => e.1 ∈ c.filterKeys) = [] := by simpa using hnew
  have hall : es.filter (fun e => e.1 ∉ c.filterKeys) = es := by simpa using hnew
  constructor
  · rw [hkeys, hbindings, binding, List.filter_append, hnone, List.append_nil, h.used]
  · rw [orphans, hkeys, hbindings, binding, List.filter_append, hall, List.map_append, ← h.unused,
      orphans]

/-- A filter that is recorded has all the keys that were bound for it. -/
theorem Accounted.filtered {f : Filter} (h : c.Accounted values)
    (hes : FreshEntries c.bindings es) (hbindings : c'.bindings = (c.binding es).bindings)
    (hfilters : c'.filters = c.filters ++ [f]) (hf : f.operand.keyList = es.map Prod.fst) :
    c'.Accounted values := by
  have hkeys : c'.filterKeys = c.filterKeys ++ es.map Prod.fst := by
    simp [filterKeys, hfilters, hf]
  have hold : ∀ e ∈ c.bindings.entries, (e.1 ∈ c'.filterKeys ↔ e.1 ∈ c.filterKeys) := by
    intro e he
    rw [hkeys, List.mem_append, or_iff_left]
    intro hmem
    obtain ⟨d, hd, heq⟩ := List.mem_map.mp hmem
    exact hes.not_mem d hd (heq ▸ List.mem_map_of_mem he)
  have hnew : ∀ e ∈ es, e.1 ∈ c'.filterKeys :=
    fun e he => hkeys ▸ List.mem_append_right _ (List.mem_map_of_mem he)
  have hall : es.filter (fun e => e.1 ∈ c'.filterKeys) = es := by simpa using hnew
  have hnone : es.filter (fun e => e.1 ∉ c'.filterKeys) = [] := by simpa using hnew
  constructor
  · rw [hbindings, binding, List.filter_append, hall, List.map_append,
      List.filter_congr fun e he => decide_eq_decide.mpr (hold e he), h.used, hkeys]
  · rw [orphans, hbindings, binding, List.filter_append, hnone, List.append_nil,
      List.filter_congr fun e he => decide_eq_decide.mpr (not_congr (hold e he)), ← h.unused,
      orphans]

theorem after_accounted (h : c.Accounted values) (v : Verb) :
    (v.after tablePrefix c).Accounted (values ++ c.stranded tablePrefix v) := by
  obtain ⟨es, hes, hbindings, hcases⟩ := v.after_cases tablePrefix c
  by_cases hv : (v.isFilter && v.accepted tablePrefix c) = true
  · rw [if_pos hv] at hcases
    obtain ⟨-, hnone, f, hfilters, hf, -⟩ := hcases
    rw [hnone, List.append_nil]
    exact h.filtered hes hbindings hfilters hf
  · rw [if_neg hv] at hcases
    rw [← hcases.1]
    exact h.bound hes hbindings hcases.2

def strandedValues (tablePrefix : String) : Chain → List Verb → List Value
  | _, [] => []
  | c, v :: vs => c.stranded tablePrefix v ++ strandedValues tablePrefix (v.after tablePrefix c) vs

theorem run_accounted (h : c.Accounted values) (verbs : List Verb) :
    (c.run tablePrefix verbs).Accounted (values ++ strandedValues tablePrefix c verbs) := by
  induction verbs generalizing c values with
  | nil => simpa [strandedValues, run] using h
  | cons v vs ih =>
    rw [strandedValues, ← List.append_assoc]
    exact ih (after_accounted h v)

theorem Accounted.keys_eq_iff (h : c.Accounted values) :
    c.bindings.keys = c.filterKeys ↔ values = [] := by
  have hnone : c.orphans = [] ↔ ∀ e ∈ c.bindings.entries, e.1 ∈ c.filterKeys := by
    simp [orphans]
  rw [← h.unused, List.map_eq_nil_iff, hnone]
  constructor
  · intro hkeys e he
    rw [← hkeys]
    exact List.mem_map_of_mem he
  · intro hall
    have hused := h.used
    rwa [List.filter_eq_self.mpr (by simpa using hall)] at hused

/-! ## One filter -/

section

variable {connective : Connective} {column operator : String} {value : Value}

/-- A filter is refused exactly where there is a reason to. -/
theorem filter_refused_iff :
    (Verb.filter connective column operator value).accepted tablePrefix c = false ↔
      ∃ e, c.FilterRefused tablePrefix column operator value e := by
  obtain ⟨es, -, ⟨op, r, o, hop, hr, hout, -, -, ho, hnested⟩ | ⟨e, hout, -, hrefused⟩⟩ :=
    addFilter_spec tablePrefix connective column operator value c
  · have haccepted := Verb.accepted_eq (v := .filter connective column operator value) hout
    refine iff_of_false (by rw [haccepted]; exact Bool.noConfusion) ?_
    rintro ⟨e, hrefused⟩
    cases hrefused with
    | reference h =>
      rw [hr] at h
      cases h
    | operator h =>
      rw [hop] at h
      cases h
    | needsNull hop' honly hv =>
      obtain rfl : op = _ := Option.some.inj (hop.symm.trans hop')
      cases ho <;> simp_all [Value.isNull]
    | nested h =>
      rw [hnested] at h
      cases h
  · exact iff_of_true (Verb.accepted_eq (v := .filter connective column operator value) hout)
      ⟨e, hrefused⟩

theorem filter_refused_outcome
    (h : (Verb.filter connective column operator value).accepted tablePrefix c = false) :
    ∃ e es, c.FilterRefused tablePrefix column operator value e ∧ FreshEntries c.bindings es ∧
      ((Verb.filter connective column operator value).apply tablePrefix).outcome c =
        (.error e, c.binding es) ∧
      es.map Prod.snd = c.strandedBy tablePrefix column operator value := by
  obtain ⟨es, hes, ⟨op, r, o, -, -, hout, -⟩ | ⟨e, hout, hvals, hrefused⟩⟩ :=
    addFilter_spec tablePrefix connective column operator value c
  · rw [Verb.accepted_eq (v := .filter connective column operator value) hout] at h
    cases h
  · exact ⟨e, es, hrefused, hes, hout, hvals⟩

/-- Something is stranded where a list has a list behind other items. -/
theorem strandedBy_ne_nil :
    c.strandedBy tablePrefix column operator value ≠ [] ↔
      ∃ r op item items, c.reference tablePrefix column = .ok r ∧
        Operator.ofText? operator = some op ∧ op.onlyNull = false ∧
        value = .list (item :: items) ∧ item.isList = false ∧ items.any Value.isList = true := by
  unfold strandedBy
  cases hr : c.reference tablePrefix column with
  | error e => simp
  | ok r =>
    cases hop : Operator.ofText? operator with
    | none => simp
    | some op => simp [Value.stranded_ne_nil]

theorem refused_after_eq_iff
    (h : (Verb.filter connective column operator value).accepted tablePrefix c = false) :
    (Verb.filter connective column operator value).after tablePrefix c = c ↔
      c.strandedBy tablePrefix column operator value = [] := by
  obtain ⟨e, es, -, -, hout, hvals⟩ := filter_refused_outcome h
  rw [Verb.after, hout, ← hvals, List.map_eq_nil_iff]
  constructor
  · intro heq
    have hentries : c.bindings.entries ++ es = c.bindings.entries :=
      congrArg (fun c => c.bindings.entries) heq
    simpa using hentries
  · rintro rfl
    exact binding_nil c

end

/-- A filter is refused exactly where there is a reason to. It then adds to the chain the values
that it strands, bound under fresh keys, and nothing else. It leaves the chain as it was, unless its
value is a list with a list behind other items and neither its column nor its operator is refused.
After every run the values of which no filter has the key are those that were stranded on the way;
so the bound keys are the keys of the filters, in order, if and only if nothing was. -/
theorem refused_filters (tablePrefix : String) :
    (∀ (c : Chain) (connective : Connective) (column operator : String) (value : Value),
      let v := Verb.filter connective column operator value
      (v.accepted tablePrefix c = false ↔
        ∃ e, c.FilterRefused tablePrefix column operator value e) ∧
      (v.accepted tablePrefix c = false →
        (∃ e es, c.FilterRefused tablePrefix column operator value e ∧
          FreshEntries c.bindings es ∧
          (v.apply tablePrefix).outcome c = (.error e, c.binding es) ∧
          es.map Prod.snd = c.strandedBy tablePrefix column operator value) ∧
        (v.after tablePrefix c ≠ c ↔
          ∃ r op item items, c.reference tablePrefix column = .ok r ∧
            Operator.ofText? operator = some op ∧ op.onlyNull = false ∧
            value = .list (item :: items) ∧ item.isList = false ∧
            items.any Value.isList = true))) ∧
      ∀ (c₀ : Chain) (verbs : List Verb), Initial tablePrefix c₀ →
        let c := c₀.run tablePrefix verbs
        c.orphans.map Prod.snd = strandedValues tablePrefix c₀ verbs ∧
          (c.bindings.keys = c.filterKeys ↔ strandedValues tablePrefix c₀ verbs = []) := by
  constructor
  · intro c connective column operator value v
    refine ⟨filter_refused_iff, fun hrefused => ⟨filter_refused_outcome hrefused, ?_⟩⟩
    rw [← strandedBy_ne_nil, ne_eq, refused_after_eq_iff hrefused]
  · intro c₀ verbs h₀ c
    have hc : c.Accounted (strandedValues tablePrefix c₀ verbs) := run_accounted h₀.accounted verbs
    exact ⟨hc.unused, hc.keys_eq_iff⟩

def nestedFilter : Verb := .filter .and "email" "=" (.list [.text "a", .list [.text "b"]])

/-- The first item stays bound, and no filter has its key. -/
theorem nested_stranded :
    nestedFilter.accepted "" (start .select "users") = false ∧
      nestedFilter.after "" (start .select "users") ≠ start .select "users" ∧
      ((start .select "users").run "" [nestedFilter]).orphans.map Prod.snd = [.text "a"] ∧
      ((start .select "users").run "" [nestedFilter]).bindings.keys ≠
        ((start .select "users").run "" [nestedFilter]).filterKeys := by
  have hrefused : nestedFilter.accepted "" (start .select "users") = false := rfl
  have hname : Identifier.table "" "users" = .ok "users" := rfl
  obtain ⟨hfilter, hrun⟩ := refused_filters ""
  obtain ⟨horphans, hkeys⟩ := hrun (start .select "users") [nestedFilter] (.started .select hname)
  have hstranded : strandedValues "" (start .select "users") [nestedFilter] = [.text "a"] := rfl
  rw [hstranded] at horphans hkeys
  refine ⟨hrefused, ?_, horphans, fun heq => absurd (hkeys.mp heq) (by simp)⟩
  exact ((hfilter _ _ _ _ _).2 hrefused).2.mpr
    ⟨⟨"users", "email"⟩, .equal, _, _, rfl, by decide, rfl, rfl, rfl, rfl⟩

end Chain

end QueryLoom
