import Mathlib.Data.List.Forall2
import QueryLoom.Proofs.Chain.Values
import QueryLoom.Proofs.Statement.Clauses

/-!
# Bind keys do not interfere

Seeds lose their digits, points and underscores, so different filters ask for the same key all the
time. Each filter of a chain has keys of its own all the same, and they stay bound to the values
that were passed for it, whatever verbs follow and whichever of them fail. In the statement only a
payload column of the same name comes before a key.
-/

set_option autoImplicit false

namespace QueryLoom

namespace Operand

variable {op : Operator} {b b' : Bindings} {o : Operand} {v : Value}

theorem map_get?_of_grown (hgrown : ∀ k v, b.get? k = some v → b'.get? k = some v)
    {ks : List String} {vs : List Value} (h : ks.map b.get? = vs.map some) :
    ks.map b'.get? = vs.map some := by
  rw [← h]
  refine List.map_congr_left fun k hk => ?_
  have hbound : b.get? k ∈ vs.map some := h ▸ List.mem_map_of_mem hk
  obtain ⟨v, -, hv⟩ := List.mem_map.mp hbound
  rw [← hv, hgrown k v hv.symm]

theorem StandsFor.grown (h : o.StandsFor op b v)
    (hgrown : ∀ k v, b.get? k = some v → b'.get? k = some v) : o.StandsFor op b' v := by
  cases h with
  | null h => exact .null h
  | key hop hlist hnull hk => exact .key hop hlist hnull (hgrown _ _ hk)
  | keys hop hks => exact .keys hop (map_get?_of_grown hgrown hks)

end Operand

theorem Operator.nullTest?_cases {op test : Operator} (h : op.nullTest? = some test) :
    test = .is ∨ test = .isNot := by
  cases op <;> simp_all [Operator.nullTest?]

/-- A filter tests for NULL exactly where it has NULL to compare with. -/
theorem Operand.StandsFor.nullTest {op : Operator} {b : Bindings} {o : Operand} {v : Value}
    (h : o.StandsFor op b v) (connective : Connective) (r : Reference) :
    ((Chain.filterOf connective op r o).operator = .is ∨
      (Chain.filterOf connective op r o).operator = .isNot) ↔ o = .null := by
  have hscalar : op.onlyNull = false → ¬ (op = .is ∨ op = .isNot) := by
    rintro hop (rfl | rfl) <;> cases hop
  cases h with
  | null h =>
    obtain ⟨test, htest⟩ := Option.isSome_iff_exists.mp h
    simpa [Chain.filterOf, htest] using Operator.nullTest?_cases htest
  | key hop => simpa [Chain.filterOf] using hscalar hop
  | keys hop => simpa [Chain.filterOf] using hscalar hop

namespace Chain

variable {tablePrefix : String} {c c' : Chain}

/-- No verb gives a bound key another value or another place. -/
theorem after_entries (tablePrefix : String) (v : Verb) (c : Chain) :
    c.bindings.entries <+: (v.after tablePrefix c).bindings.entries := by
  obtain ⟨es, -, hbindings, -⟩ := v.after_cases tablePrefix c
  exact ⟨es, by rw [hbindings]; rfl⟩

theorem get?_after {k : String} {value : Value} (h : c.bindings.get? k = some value) (v : Verb) :
    (v.after tablePrefix c).bindings.get? k = some value := by
  obtain ⟨es, -, hbindings, -⟩ := v.after_cases tablePrefix c
  rw [hbindings, binding, Bindings.get?_append]
  simp [h]

/-! ## Filters and the calls that they come from -/

def acceptedFilters (tablePrefix : String) : Chain → List Verb → List Verb
  | _, [] => []
  | c, v :: vs =>
    (if v.isFilter && v.accepted tablePrefix c then [v] else []) ++
      acceptedFilters tablePrefix (v.after tablePrefix c) vs

def Recorded (tablePrefix : String) (c : Chain) (calls : List Verb) : Prop :=
  List.Forall₂ (Filter.Records tablePrefix c) c.filters calls

theorem records_after {f : Filter} {call : Verb} (h : f.Records tablePrefix c call) (v : Verb) :
    f.Records tablePrefix (v.after tablePrefix c) call := by
  cases h with
  | call hop hr ho =>
    have htable : (v.after tablePrefix c).table = c.table := (run_head tablePrefix c [v]).1
    refine .call hop ?_ (ho.grown fun _ _ hk => get?_after hk v)
    rw [reference_congr htable, hr]

theorem after_recorded {calls : List Verb} (h : c.Recorded tablePrefix calls) (v : Verb) :
    (v.after tablePrefix c).Recorded tablePrefix
      (calls ++ if v.isFilter && v.accepted tablePrefix c then [v] else []) := by
  have hold : List.Forall₂ (Filter.Records tablePrefix (v.after tablePrefix c)) c.filters calls :=
    h.imp fun _ _ hf => records_after hf v
  obtain ⟨es, -, -, hcases⟩ := v.after_cases tablePrefix c
  unfold Recorded
  by_cases hv : (v.isFilter && v.accepted tablePrefix c) = true
  · rw [if_pos hv] at hcases ⊢
    obtain ⟨-, -, f, hfilters, -, hf⟩ := hcases
    rw [hfilters]
    exact List.rel_append hold (.cons hf .nil)
  · rw [if_neg hv] at hcases ⊢
    rwa [hcases.2, List.append_nil]

theorem run_recorded {calls : List Verb} (h : c.Recorded tablePrefix calls) (verbs : List Verb) :
    (c.run tablePrefix verbs).Recorded tablePrefix
      (calls ++ acceptedFilters tablePrefix c verbs) := by
  induction verbs generalizing c calls with
  | nil => simpa [acceptedFilters, run] using h
  | cons v vs ih =>
    rw [acceptedFilters, ← List.append_assoc]
    exact ih (after_recorded h v)

theorem Recorded.nullTest {calls : List Verb} (h : c.Recorded tablePrefix calls) :
    ∀ f ∈ c.filters, (f.operator = .is ∨ f.operator = .isNot) ↔ f.operand = .null := by
  unfold Recorded at h
  -- the bindings stay those of the whole chain while its filters are taken one by one
  generalize c.filters = filters at h
  induction h with
  | nil => simp
  | cons hf _ ih =>
    refine List.forall_mem_cons.mpr ⟨?_, ih⟩
    cases hf with
    | call _ _ ho => exact ho.nullTest _ _

/-! ## Verbs that assign nothing -/

theorem run_payload {operation : Operation} (hop : operation = .select ∨ operation = .delete)
    {verbs : List Verb} (hverbs : ∀ v ∈ verbs, operation.allows v = true) :
    (c.run tablePrefix verbs).payload = c.payload := by
  induction verbs generalizing c with
  | nil => rfl
  | cons v verbs ih =>
    have hv : ∀ pairs, v ≠ .assign pairs := by
      rintro pairs rfl
      have hallowed := hverbs (.assign pairs) (by simp)
      rcases hop with rfl | rfl <;> cases hallowed
    rw [run, ih fun w hw => hverbs w (List.mem_cons_of_mem _ hw), after_payload tablePrefix c hv]

/-! ## What the keys come to -/

/-- What the keys of a chain come to in its statement: a key is looked up among the assigned
columns of a write first, and else has its own value. -/
structure Resolves (c : Chain) (op : Operation) (b : Bindings) : Prop where
  payload : op = .insert ∨ op = .update → ∀ e ∈ c.payload, b.get? e.1 = some e.2
  own : ∀ k ∈ c.filterKeys, (op = .insert ∨ op = .update → k ∉ c.payload.map Prod.fst) →
    b.get? k = c.bindings.get? k

theorem compiledBindings_resolves (h : (c.payload.map Prod.fst).Nodup) (op : Operation) :
    c.Resolves op (c.compiledBindings op) := by
  have hpayload : ∀ e ∈ c.payload, (c.bindings.extend ⟨c.payload⟩).get? e.1 = some e.2 :=
    fun _ he => Bindings.get?_extend_of_mem _ h he
  have hown : ∀ k, k ∉ c.payload.map Prod.fst →
      (c.bindings.extend ⟨c.payload⟩).get? k = c.bindings.get? k :=
    fun _ hk => Bindings.get?_extend_of_not_mem _ hk
  cases op with
  | insert => exact ⟨fun _ => hpayload, fun k _ hk => hown k (hk (Or.inl rfl))⟩
  | update => exact ⟨fun _ => hpayload, fun k _ hk => hown k (hk (Or.inr rfl))⟩
  | select | delete => exact ⟨by simp, fun _ _ _ => rfl⟩

/-- A chain with an operation has a table. -/
theorem Initial.run_table (h : Initial tablePrefix c) (verbs : List Verb) {op : Operation}
    (hop : (c.run tablePrefix verbs).operation = some op) :
    ∃ table, (c.run tablePrefix verbs).table = some table := by
  obtain ⟨htable, hoperation⟩ := run_head tablePrefix c verbs
  rw [hoperation] at hop
  rw [htable]
  cases h with
  | started => exact ⟨_, rfl⟩
  | left => cases hop

/-- In every chain that verbs can make, the keys of the filters are distinct words of letters, each
filter was recorded by an accepted call and its keys are bound to what was passed there, and it has
a test for NULL exactly if it compares with NULL. No verb changes an entry that is bound. The
statement compiles if a write has something to write; in it each assigned column has its value, and
each other key of a filter has its own. -/
theorem run_bindKeys {c₀ : Chain} (h₀ : Initial tablePrefix c₀) (verbs : List Verb) :
    let c := c₀.run tablePrefix verbs
    (c.filterKeys.Nodup ∧ ∀ k ∈ c.filterKeys, BindKey.IsKey k) ∧
      List.Forall₂ (Filter.Records tablePrefix c) c.filters
        (acceptedFilters tablePrefix c₀ verbs) ∧
      (∀ f ∈ c.filters, (f.operator = .is ∨ f.operator = .isNot) ↔ f.operand = .null) ∧
      (c.bindings.keys.Nodup ∧
        ∀ v : Verb, c.bindings.entries <+: (v.after tablePrefix c).bindings.entries) ∧
      ∀ op, c.operation = some op →
        ((op = .insert ∨ op = .update → c.payload ≠ []) →
          ∀ d, ∃ q, c.compile d = .ok q ∧ c.Resolves op q.bindings) ∧
        (op = .select ∨ op = .delete → (∀ v ∈ verbs, op.allows v = true) → c.payload = []) := by
  intro c
  obtain ⟨hfilters, -, hpayload⟩ := h₀.bare
  have hwell : c.WellFormed := (h₀.reachable.run verbs).wellFormed
  have hkeyed := run_keyed tablePrefix h₀.keyed verbs
  have hbare : c₀.Recorded tablePrefix [] := by simp [Recorded, hfilters]
  have hrecorded : c.Recorded tablePrefix (acceptedFilters tablePrefix c₀ verbs) :=
    run_recorded hbare verbs
  refine ⟨⟨hkeyed.distinct, fun k hk => ?_⟩, hrecorded, hrecorded.nullTest,
    ⟨hkeyed.boundOnce, fun v => after_entries tablePrefix v c⟩, fun op hop => ⟨?_, ?_⟩⟩
  · obtain ⟨f, hf, hkf⟩ := List.mem_flatMap.mp hk
    exact (hwell.filters f hf).2 k hkf
  · intro hvalues d
    obtain ⟨table, htable⟩ := h₀.run_table verbs hop
    obtain ⟨s, hs⟩ := statement_ok c d table hvalues
    exact ⟨_, by rw [compile_eq htable hop, hs]; rfl,
      compiledBindings_resolves hwell.payloadDistinct op⟩
  · intro hnone hverbs
    rw [show c.payload = c₀.payload from run_payload hnone hverbs, hpayload]

/-- The second filter is refused behind its first item, and the third one asks for a key that is
taken. The column that is assigned is called like the key of the first filter. -/
def collidingVerbs : List Verb :=
  [.filter .and "id" "=" (.int 3), .filter .and "id" "=" (.list [.int 4, .list []]),
    .filter .and "id_2" "=" (.int 5), .filter .and "id" "!=" .null,
    .assign [("usersandid", .int 7)]]

set_option maxRecDepth 2000 in
theorem colliding_bindKeys :
    let c := (start .update "users").run "" collidingVerbs
    c.filterKeys = ["usersandid", "usersandidab"] ∧
      ∃ q, c.compile .mySql = .ok q ∧ q.bindings.get? "usersandid" = some (.int 7) ∧
        q.bindings.get? "usersandidab" = some (.int 5) := by
  intro c
  have hname : Identifier.table "" "users" = .ok "users" := rfl
  have hkeys : c.filterKeys = ["usersandid", "usersandidab"] := rfl
  have hentries : c.bindings.entries =
      [("usersandid", .int 3), ("usersandida", .int 4), ("usersandidab", .int 5)] := rfl
  have hpayload : c.payload = [("usersandid", .int 7)] := rfl
  have hassigned : ("usersandid", .int 7) ∈ c.payload := hpayload ▸ List.mem_singleton.mpr rfl
  have hown : "usersandidab" ∈ c.filterKeys ∧ "usersandidab" ∉ c.payload.map Prod.fst := by
    rw [hkeys, hpayload]
    decide
  obtain ⟨-, -, -, -, hcompile⟩ := run_bindKeys (.started .update hname) collidingVerbs
  obtain ⟨q, hq, hresolves⟩ := (hcompile .update rfl).1 (fun _ => List.ne_nil_of_mem hassigned)
    .mySql
  refine ⟨hkeys, q, hq, hresolves.payload (Or.inr rfl) _ hassigned, ?_⟩
  rw [hresolves.own "usersandidab" hown.1 fun _ => hown.2, Bindings.get?, hentries]
  rfl

end Chain

end QueryLoom
