import Mathlib.Data.List.Forall2
import Mathlib.Logic.Relation
import QueryLoom.Proofs.Chain.Outcome

/-!
# Runs of verbs

A chain is what a list of verbs leaves of the chain it was started as, the verbs that failed
included. Every verb takes a chain through elementary steps, so a property that each step keeps
holds after every run.
-/

set_option autoImplicit false

namespace QueryLoom

def Verb.after (tablePrefix : String) (v : Verb) (c : Chain) : Chain :=
  ((v.apply tablePrefix).outcome c).2

def Verb.accepted (tablePrefix : String) (v : Verb) (c : Chain) : Bool :=
  ((v.apply tablePrefix).outcome c).1.isOk

namespace Chain

def run (tablePrefix : String) (c : Chain) : List Verb → Chain
  | [] => c
  | v :: vs => run tablePrefix (v.after tablePrefix c) vs

inductive Step (tablePrefix : String) : Chain → Chain → Prop
  /-- Values of a filter that is then refused. -/
  | bound {c : Chain} {es : List (String × Value)} (h : FreshEntries c.bindings es) :
      Step tablePrefix c (c.binding es)
  | filtered {c : Chain} {es : List (String × Value)} {connective : Connective} {op : Operator}
      {column : String} {r : Reference} {o : Operand} (h : FreshEntries c.bindings es)
      (hr : c.reference tablePrefix column = .ok r) (ho : o.keyList = es.map Prod.fst) :
      Step tablePrefix c
        { c.binding es with filters := c.filters ++ [filterOf connective op r o] }
  | selected {c : Chain} {item : String} {r : Reference}
      (hr : c.reference tablePrefix item = .ok r) : Step tablePrefix c (c.selecting r)
  | joined {c : Chain} {j : Join} (ht : IsIdentifier j.table) (hon : IsFragment j.condition) :
      Step tablePrefix c (c.joining j)
  | sorted {c : Chain} {column : String} {r : Reference} {direction : Direction}
      (hr : c.reference tablePrefix column = .ok r) :
      Step tablePrefix c { c with sort := some ⟨r, direction⟩ }
  | grouped {c : Chain} {column : String} {r : Reference}
      (hr : c.reference tablePrefix column = .ok r) :
      Step tablePrefix c { c with groupBy := some r }
  | concatenated {c : Chain} {g : GroupConcat} (he : IsFragment g.expr)
      (hl : IsIdentifier g.label) :
      Step tablePrefix c { c with groupConcats := c.groupConcats ++ [g] }
  | limited {c : Chain} {l : Limit} : Step tablePrefix c { c with limit := some l }
  | assigned {c : Chain} {column : String} {v : Value} (hc : IsIdentifier column)
      (hid : column ≠ "id") (hv : v.isList = false) :
      Step tablePrefix c { c with payload := Bindings.put column v c.payload }

abbrev Steps (tablePrefix : String) : Chain → Chain → Prop :=
  Relation.ReflTransGen (Step tablePrefix)

theorem addFilter_steps (tablePrefix : String) (connective : Connective)
    (column operator : String) (v : Value) (c : Chain) :
    Steps tablePrefix c ((addFilter tablePrefix connective column operator v).outcome c).2 := by
  obtain ⟨es, hes, ⟨op, r, o, -, hr, hout, ho, -⟩ | ⟨e, hout, -⟩⟩ :=
    addFilter_spec tablePrefix connective column operator v c
  · rw [hout]
    exact .single (.filtered hes hr ho)
  · rw [hout]
    exact .single (.bound hes)

theorem selectColumns_steps (tablePrefix : String) (items : List String) (c : Chain) :
    Steps tablePrefix c ((selectColumns tablePrefix items).outcome c).2 := by
  induction items generalizing c with
  | nil => exact .refl
  | cons item items ih =>
    rw [selectColumns_cons_outcome]
    cases hr : c.reference tablePrefix item with
    | error e => exact .refl
    | ok r => exact .head (.selected hr) (ih _)

/-- A pass over a list succeeds if it does for each item. -/
theorem forall₂_of_mapM_ok {α β : Type} {f : α → Except Error β} {as : List α} {bs : List β}
    (h : as.mapM f = .ok bs) : List.Forall₂ (fun a b => f a = .ok b) as bs := by
  induction as generalizing bs with
  | nil =>
    cases h
    exact .nil
  | cons a as ih =>
    rw [List.mapM_cons] at h
    cases ha : f a with
    | error e => simp [ha, Bind.bind, Except.bind] at h
    | ok b =>
      cases hrest : as.mapM f with
      | error e => simp [ha, hrest, Bind.bind, Except.bind] at h
      | ok rest =>
        have hbs : b :: rest = bs := by
          simpa [ha, hrest, Bind.bind, Except.bind, Pure.pure, Except.pure] using h
        subst hbs
        exact .cons ha (ih hrest)

theorem column_of_map {p e : String × Value}
    (h : ((Identifier.column p.1).map fun c => (c, p.2)) = Except.ok e) :
    Identifier.column p.1 = .ok e.1 ∧ e.2 = p.2 := by
  obtain ⟨c, hc, rfl⟩ := map_eq_ok.mp h
  exact ⟨hc, rfl⟩

theorem named_isIdentifier {pairs named : List (String × Value)}
    (h : (pairs.mapM fun p => (Identifier.column p.1).map fun c => (c, p.2)) = Except.ok named) :
    ∀ e ∈ named, IsIdentifier e.1 := by
  have hnamed := forall₂_of_mapM_ok h
  clear h
  induction hnamed with
  | nil => simp
  | cons he _ ih => exact List.forall_mem_cons.mpr ⟨Identifier.column_ok (column_of_map he).1, ih⟩

theorem assignColumns_steps (tablePrefix : String) {named : List (String × Value)}
    (h : ∀ e ∈ named, IsIdentifier e.1) (c : Chain) :
    Steps tablePrefix c ((assignColumns named).outcome c).2 := by
  induction named generalizing c with
  | nil => exact .refl
  | cons e named ih =>
    obtain ⟨column, v⟩ := e
    have hrest := ih fun e he => h e (List.mem_cons_of_mem _ he)
    rw [assignColumns_cons_outcome]
    by_cases hid : column = "id"
    · simpa [hid] using hrest c
    · by_cases hv : v.isList = true
      · simpa [hid, hv] using Relation.ReflTransGen.refl
      · simp only [hid, hv, if_false]
        exact .head (.assigned (h (column, v) (by simp)) hid (by simpa using hv)) (hrest _)

theorem assign_steps (tablePrefix : String) (pairs : List (String × Value)) (c : Chain) :
    Steps tablePrefix c ((assign pairs).outcome c).2 := by
  unfold assign
  rw [Attempt.outcome_bind, Attempt.outcome_ofExcept]
  cases hnamed : pairs.mapM fun p => (Identifier.column p.1).map fun c => (c, p.2) with
  | error e => exact .refl
  | ok named => exact assignColumns_steps tablePrefix (named_isIdentifier hnamed) c

end Chain

/-- What a verb does is a sequence of elementary changes, also where it fails. -/
theorem Verb.after_steps (tablePrefix : String) (v : Verb) (c : Chain) :
    Chain.Steps tablePrefix c (v.after tablePrefix c) := by
  unfold Verb.after
  cases v with
  | select list => exact Chain.selectColumns_steps tablePrefix _ c
  | filter connective column operator value =>
    exact Chain.addFilter_steps tablePrefix connective column operator value c
  | join kind table condition =>
    rcases Chain.addJoin_outcome tablePrefix kind table condition with
      ⟨e, h⟩ | ⟨t, on, ht, hon, h⟩
    · simpa [Verb.apply, h] using Relation.ReflTransGen.refl
    · rw [Verb.apply, h]
      exact .single (.joined ht hon)
  | orderBy column direction =>
    rw [Verb.apply, Chain.orderBy_outcome]
    cases hr : c.reference tablePrefix column with
    | error e => exact .refl
    | ok r => exact .single (.sorted hr)
  | groupBy column =>
    rw [Verb.apply, Chain.setGroupBy_outcome]
    cases hr : c.reference tablePrefix column with
    | error e => exact .refl
    | ok r => exact .single (.grouped hr)
  | groupConcat expr label =>
    rcases Chain.addGroupConcat_outcome expr label with ⟨e, h⟩ | ⟨ex, l, hex, hl, h⟩
    · simpa [Verb.apply, h] using Relation.ReflTransGen.refl
    · rw [Verb.apply, h]
      exact .single (.concatenated hex hl)
  | limit l => exact .single .limited
  | assign pairs => exact Chain.assign_steps tablePrefix pairs c

namespace Chain

theorem run_steps (tablePrefix : String) (c : Chain) (verbs : List Verb) :
    Steps tablePrefix c (c.run tablePrefix verbs) := by
  induction verbs generalizing c with
  | nil => exact .refl
  | cons v vs ih => exact (v.after_steps tablePrefix c).trans (ih _)

/-- What every step keeps, every run keeps. -/
theorem run_invariant {tablePrefix : String} {I : Chain → Prop}
    (hstep : ∀ {c c' : Chain}, Step tablePrefix c c' → I c → I c') {c : Chain} (h : I c)
    (verbs : List Verb) : I (c.run tablePrefix verbs) := by
  have hsteps := run_steps tablePrefix c verbs
  generalize c.run tablePrefix verbs = c' at hsteps
  induction hsteps with
  | refl => exact h
  | tail _ hlast ih => exact hstep hlast ih

end Chain

end QueryLoom
