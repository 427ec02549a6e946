import QueryLoom.Proofs.Bindings.Order
import QueryLoom.Proofs.Chain.Lists

/-!
# The payload of a write

What the verbs of a chain may assign holds of the payload whatever verbs there were: no list, no
column twice and no `id`, in whichever spelling the columns were given. If no list of assignments is
refused, the payload has the columns that were given in the order of their first mention, each with
the value that was given last.
-/

set_option autoImplicit false

namespace QueryLoom

def Verb.given : Verb → List (String × Value)
  | .assign pairs =>
    (pairs.map fun p => (Identifier.normalize p.1, p.2)).filter fun e => e.1 ≠ "id"
  | _ => []

namespace Chain

variable {tablePrefix : String} {c c' : Chain}

def Assignable (payload : List (String × Value)) : Prop :=
  ∀ e ∈ payload, e.1 ≠ "id" ∧ e.2.isList = false

theorem step_assignable (h : Step tablePrefix c c') (hc : Assignable c.payload) :
    Assignable c'.payload := by
  cases h with
  | selected hr =>
    rw [selecting_eq]
    exact hc
  | joined ht hon =>
    rw [joining_eq]
    exact hc
  | assigned hcolumn hid hv =>
    intro e he
    rcases Bindings.mem_put he with hold | rfl
    · exact hc e hold
    · exact ⟨hid, hv⟩
  | _ => exact hc

theorem run_assignable (h : Assignable c.payload) (verbs : List Verb) :
    Assignable (c.run tablePrefix verbs).payload :=
  run_invariant (I := fun c => Assignable c.payload) step_assignable h verbs

def AssignmentsAccepted (tablePrefix : String) : Chain → List Verb → Prop
  | _, [] => True
  | c, v :: vs =>
    (∀ pairs, v = .assign pairs → v.accepted tablePrefix c = true) ∧
      AssignmentsAccepted tablePrefix (v.after tablePrefix c) vs

theorem named_eq {pairs named : List (String × Value)}
    (h : (pairs.mapM fun p => (Identifier.column p.1).map fun c => (c, p.2)) = Except.ok named) :
    named = pairs.map fun p => (Identifier.normalize p.1, p.2) := by
  have hnamed := forall₂_of_mapM_ok h
  clear h
  induction hnamed with
  | nil => rfl
  | cons he _ ih =>
    obtain ⟨hcolumn, hvalue⟩ := column_of_map he
    rw [List.map_cons, ih, ← hvalue, ← (Identifier.check_ok hcolumn).1]

theorem upToError_scalar {es : List (String × Value)}
    (h : (upToError (es.map scalar)).2 = .ok ()) : (upToError (es.map scalar)).1 = es := by
  induction es with
  | nil => rfl
  | cons e es ih =>
    rw [List.map_cons, scalar] at h ⊢
    split at h
    · cases h
    · rename_i he
      rw [if_neg he, upToError, ih h]

/-- A list of assignments that is not refused assigns all columns that are given. -/
theorem assignedBy_eq_given {v : Verb}
    (h : ∀ pairs, v = .assign pairs → v.accepted tablePrefix c = true) :
    assignedBy v = v.given := by
  cases v with
  | assign pairs =>
    have hok := h pairs rfl
    rw [Verb.accepted_eq (v := .assign pairs) (assign_outcome pairs c)] at hok
    have hnone : (assignments pairs).2 = .ok () := by
      cases hresult : (assignments pairs).2 with
      | error e => rw [hresult] at hok; cases hok
      | ok u => rfl
    rw [assignedBy, Verb.given]
    unfold assignments at hnone ⊢
    cases hnamed : pairs.mapM fun p => (Identifier.column p.1).map fun c => (c, p.2) with
    | error e =>
      rw [hnamed] at hnone
      cases hnone
    | ok named =>
      rw [hnamed] at hnone
      rw [← named_eq hnamed]
      exact upToError_scalar hnone
  | _ => rfl

theorem flatMap_assignedBy {verbs : List Verb} (h : AssignmentsAccepted tablePrefix c verbs) :
    verbs.flatMap assignedBy = verbs.flatMap Verb.given := by
  induction verbs generalizing c with
  | nil => rfl
  | cons v verbs ih =>
    rw [List.flatMap_cons, List.flatMap_cons, assignedBy_eq_given h.1, ih h.2]

/-- What a chain without a payload has assigned after a run: the columns in the order in which
they came first, each with its last value. -/
theorem run_payload_eq (h : c.payload = []) (verbs : List Verb) :
    let es := verbs.flatMap assignedBy
    let payload := (c.run tablePrefix verbs).payload
    payload.map Prod.fst = (es.map Prod.fst).eraseDups ∧
      ∀ column, payload.lookup column = es.reverse.lookup column := by
  intro es payload
  have hpayload : payload = (Bindings.ofList es).entries := by
    rw [Bindings.ofList, Bindings.empty, ← h]
    exact run_assigned c verbs
  rw [hpayload]
  exact ⟨Bindings.keys_ofList es, fun column =>
    (Bindings.get?_extend Bindings.empty es column).trans Option.or_none⟩

end Chain

end QueryLoom
