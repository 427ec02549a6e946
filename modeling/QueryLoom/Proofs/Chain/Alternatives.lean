import Mathlib.Data.List.Forall2
import QueryLoom.Chain.Compile
import QueryLoom.Proofs.Chain.Run

/-!
# A list as alternatives

A filter with a list asks for any of the items. Each item becomes a comparison with the operator of
the filter, and is bound, NULL like others. A filter with NULL alone tests for NULL instead, so the
alternatives of a list are what filters with its items alone would ask for, unless NULL is among the
items and the operator has such a test.
-/

set_option autoImplicit false

namespace QueryLoom

structure Comparison where
  reference : Reference
  operator : Operator
  value : Option Value

namespace Comparison

inductive Written (b : Bindings) (d : Chain) : Comparison → String → Prop
  | bound {r : Reference} {op : Operator} {v : Value} {k : String} (hk : b.get? k = some v) :
      Written b d ⟨r, op, some v⟩ (Chain.comparison (d.qualify r) op k)
  | null {r : Reference} {op : Operator} :
      Written b d ⟨r, op, none⟩ (d.qualify r ++ " " ++ op.text ++ " NULL")

def item (r : Reference) (op : Operator) (v : Value) : Comparison := ⟨r, op, some v⟩

def alone (r : Reference) (op : Operator) (v : Value) : Comparison :=
  if v.isNull && op.nullTest?.isSome then ⟨r, op.nullTest?.getD op, none⟩ else item r op v

theorem alone_eq_item_iff (r : Reference) (op : Operator) (v : Value) :
    alone r op v = item r op v ↔ ¬ (v.isNull = true ∧ op.nullTest?.isSome = true) := by
  rw [← Bool.and_eq_true_iff]
  unfold alone
  split <;> simp_all [item]

end Comparison

namespace Chain

variable {op : Operator} {b : Bindings} {o : Operand} {v : Value} {items : List Value}

/-- The chain has got one more filter, and this is true of its text in every chain. -/
def Adds (c c' : Chain) (connective : Connective) (P : Chain → String → Prop) : Prop :=
  ∃ f, c'.filters = c.filters ++ [f] ∧ f.connective = connective ∧
    ∀ d : Chain, P d (d.filterTerm f)

theorem alone_written (ho : o.StandsFor op b v) (hlist : v.isList = false)
    (connective : Connective) (r : Reference) (d : Chain) :
    (Comparison.alone r op v).Written b d (d.filterTerm (filterOf connective op r o)) := by
  cases ho with
  | null htest =>
    have halone : Comparison.alone r op .null = ⟨r, op.nullTest?.getD op, none⟩ := by
      simp [Comparison.alone, Value.isNull, htest]
    rw [halone]
    exact .null
  | key _ _ hnull hk =>
    have halone : Comparison.alone r op v = ⟨r, op, some v⟩ := by
      rw [Comparison.alone, hnull]
      rfl
    rw [halone]
    exact .bound hk
  | keys => cases hlist

theorem comparisons_written {ks : List String} (hks : ks.map b.get? = items.map some)
    (r : Reference) (op : Operator) (d : Chain) :
    List.Forall₂ (Comparison.Written b d) (items.map (Comparison.item r op))
      (ks.map (comparison (d.qualify r) op)) := by
  induction items generalizing ks with
  | nil =>
    rw [List.map_nil, List.map_eq_nil_iff] at hks
    subst hks
    exact .nil
  | cons v items ih =>
    cases ks with
    | nil => simp at hks
    | cons k ks =>
      obtain ⟨hk, hks⟩ := List.cons.inj hks
      exact .cons (.bound hk) (ih hks)

theorem items_written (ho : o.StandsFor op b (.list items)) (hne : items ≠ [])
    (connective : Connective) (r : Reference) (d : Chain) :
    ∃ texts, d.filterTerm (filterOf connective op r o) = "(" ++ " OR ".intercalate texts ++ ")" ∧
      List.Forall₂ (Comparison.Written b d) (items.map (Comparison.item r op)) texts := by
  cases ho with
  | key _ hlist => cases hlist
  | @keys ks _ _ hks =>
    refine ⟨ks.map (comparison (d.qualify r) op), ?_, comparisons_written hks r op d⟩
    cases ks with
    | nil => exact absurd (List.map_eq_nil_iff.mp hks.symm) hne
    | cons k ks => rfl

/-- With an operator that compares, a value that is no list of lists is refused only together with
its column. -/
theorem filter_outcome {tablePrefix operator : String} (hop : Operator.ofText? operator = some op)
    (honly : op.onlyNull = false) (hflat : v.isNested = false) (connective : Connective)
    (column : String) (c : Chain) :
    let filter := Verb.filter connective column operator v
    ((filter.apply tablePrefix).outcome c).1 =
        (c.reference tablePrefix column).map (fun _ => ()) ∧
      ∀ r, c.reference tablePrefix column = .ok r →
        ∃ o, (filter.after tablePrefix c).filters = c.filters ++ [filterOf connective op r o] ∧
          o.StandsFor op (filter.after tablePrefix c).bindings v := by
  obtain ⟨es, -, ⟨op', r, o, hop', hr, hout, -, -, ho, -⟩ | ⟨e, hout, -, hrefused⟩⟩ :=
    addFilter_spec tablePrefix connective column operator v c
  · obtain rfl : op = op' := Option.some.inj (hop.symm.trans hop')
    refine ⟨by rw [Verb.apply, hout, hr]; rfl, fun r' hr' => ⟨o, ?_⟩⟩
    obtain rfl : r = r' := Except.ok.inj (hr.symm.trans hr')
    rw [Verb.after, Verb.apply, hout]
    exact ⟨rfl, ho⟩
  · cases hrefused with
    | reference hr =>
      refine ⟨by rw [Verb.apply, hout, hr]; rfl, fun r hr' => ?_⟩
      rw [hr] at hr'
      cases hr'
    | operator hnone =>
      rw [hop] at hnone
      cases hnone
    | needsNull hop' honly' =>
      obtain rfl := Option.some.inj (hop.symm.trans hop')
      rw [honly] at honly'
      cases honly'
    | nested hnested =>
      rw [hflat] at hnested
      cases hnested

/-- A filter with a list is accepted if and only if filters with its items alone are. Its text then
is one comparison for each item, in order and with OR between them, in which the item is bound. The
filter with an item alone has the same comparison, but for the name of the key, unless the item is
NULL and the operator has a test for NULL: then it has the test, and the list compares with a bound
NULL. -/
theorem list_alternatives {operator : String} (hop : Operator.ofText? operator = some op)
    (honly : op.onlyNull = false) (hne : items ≠ []) (hitems : ∀ v ∈ items, v.isList = false)
    (tablePrefix : String) (connective : Connective) (column : String) (c : Chain) :
    let filter := Verb.filter connective column operator
    (∀ v, v = .list items ∨ v ∈ items → (((filter v).apply tablePrefix).outcome c).1 =
      (c.reference tablePrefix column).map fun _ => ()) ∧
    ∀ r, c.reference tablePrefix column = .ok r →
      c.Adds ((filter (.list items)).after tablePrefix c) connective (fun d text =>
        ∃ texts, text = "(" ++ " OR ".intercalate texts ++ ")" ∧
          List.Forall₂ (Comparison.Written ((filter (.list items)).after tablePrefix c).bindings d)
            (items.map (Comparison.item r op)) texts) ∧
      ∀ v ∈ items,
        c.Adds ((filter v).after tablePrefix c) connective (fun d text =>
          (Comparison.alone r op v).Written ((filter v).after tablePrefix c).bindings d text) ∧
        (Comparison.alone r op v = Comparison.item r op v ↔
          ¬ (v.isNull = true ∧ op.nullTest?.isSome = true)) := by
  intro filter
  have hlist : (Value.list items).isNested = false := by
    rw [Value.isNested, List.any_eq_false]
    simpa using hitems
  have hscalar : ∀ v ∈ items, v.isNested = false := by
    intro v hv
    have hflat := hitems v hv
    cases v <;> first | rfl | cases hflat
  refine ⟨?_, fun r hr => ⟨?_, fun v hv => ⟨?_, Comparison.alone_eq_item_iff r op v⟩⟩⟩
  · rintro v (rfl | hv)
    · exact (filter_outcome hop honly hlist connective column c).1
    · exact (filter_outcome hop honly (hscalar v hv) connective column c).1
  · obtain ⟨o, hfilters, ho⟩ := (filter_outcome hop honly hlist connective column c).2 r hr
    exact ⟨_, hfilters, rfl, items_written ho hne connective r⟩
  · obtain ⟨o, hfilters, ho⟩ :=
      (filter_outcome hop honly (hscalar v hv) connective column c).2 r hr
    exact ⟨_, hfilters, rfl, alone_written ho (hitems v hv) connective r⟩

/-- A list with NULL compares with a bound NULL, where NULL alone is tested for. -/
theorem null_among_alternatives :
    let users := start .select "users"
    let filter := Verb.filter .and "email" "="
    Operator.ofText? "=" = some .equal ∧ Operator.equal.onlyNull = false ∧
      [Value.null, .text "a"] ≠ [] ∧ (∀ v ∈ [Value.null, .text "a"], v.isList = false) ∧
      users.reference "" "email" = .ok ⟨"users", "email"⟩ ∧
      ((filter (.list [.null, .text "a"])).after "" users).whereClause =
        "WHERE (email = :usersandemail OR email = :usersandemaila)" ∧
      ((filter .null).after "" users).whereClause = "WHERE email IS NULL" ∧
      Comparison.alone ⟨"users", "email"⟩ .equal .null ≠
        Comparison.item ⟨"users", "email"⟩ .equal .null := by
  intro users filter
  have hop : Operator.ofText? "=" = some .equal := by decide
  have hitems : ∀ v ∈ [Value.null, .text "a"], v.isList = false := by simp [Value.isList]
  have hr : users.reference "" "email" = .ok ⟨"users", "email"⟩ := rfl
  obtain ⟨-, hrendered⟩ := list_alternatives hop rfl (by simp) hitems "" .and "email" users
  obtain ⟨-, hiff⟩ := (hrendered _ hr).2 .null (by simp)
  exact ⟨hop, rfl, by simp, hitems, hr, by decide +kernel, by decide +kernel,
    fun heq => hiff.mp heq ⟨rfl, rfl⟩⟩

end Chain

end QueryLoom
