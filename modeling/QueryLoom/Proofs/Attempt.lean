import QueryLoom.Error

/-!
# Outcomes of attempts

What an attempt does is read off its outcome: the result, and the state that is left. A sequence
of two attempts stops at the first failure and keeps the state of that moment.
-/

set_option autoImplicit false

namespace QueryLoom

/-! ## Results of two steps -/

section Results

variable {ε α β : Type} {x : Except ε α} {e : ε} {b : β}

theorem bind_eq_ok {f : α → Except ε β} : x.bind f = .ok b ↔ ∃ a, x = .ok a ∧ f a = .ok b := by
  cases x <;> simp [Except.bind]

theorem map_eq_ok {f : α → β} : x.map f = .ok b ↔ ∃ a, x = .ok a ∧ f a = b := by
  cases x <;> simp [Except.map]

theorem bind_eq_error {f : α → Except ε β} :
    x.bind f = .error e ↔ x = .error e ∨ ∃ a, x = .ok a ∧ f a = .error e := by
  cases x <;> simp [Except.bind]

theorem map_eq_error {f : α → β} : x.map f = .error e ↔ x = .error e := by
  cases x <;> simp [Except.map]

end Results

/-! ## Outcomes -/

namespace Attempt

variable {σ τ α β : Type}

/-- An attempt is what it does to every state. -/
theorem ext_outcome {a b : Attempt σ α} (h : ∀ s, a.outcome s = b.outcome s) : a = b := funext h

@[simp] theorem outcome_pure (a : α) (s : σ) :
    (pure a : Attempt σ α).outcome s = (.ok a, s) := rfl

@[simp] theorem outcome_throw (e : Error) (s : σ) :
    (throw e : Attempt σ α).outcome s = (.error e, s) := rfl

@[simp] theorem outcome_get (s : σ) : (get : Attempt σ σ).outcome s = (.ok s, s) := rfl

@[simp] theorem outcome_set (t s : σ) : (set t : Attempt σ PUnit).outcome s = (.ok (), t) := rfl

@[simp] theorem outcome_modify (f : σ → σ) (s : σ) :
    (modify f : Attempt σ PUnit).outcome s = (.ok (), f s) := rfl

@[simp] theorem outcome_modifyGet (f : σ → α × σ) (s : σ) :
    (modifyGet f : Attempt σ α).outcome s = (.ok (f s).1, (f s).2) := rfl

@[simp] theorem outcome_ofExcept (r : Except Error α) (s : σ) :
    (ofExcept r : Attempt σ α).outcome s = (r, s) := by
  cases r <;> rfl

/-- The second attempt runs only after a success of the first. -/
theorem outcome_bind (a : Attempt σ α) (f : α → Attempt σ β) (s : σ) :
    (a >>= f).outcome s = match a.outcome s with
      | (.ok x, t) => (f x).outcome t
      | (.error e, t) => (.error e, t) := by
  change (ExceptT.bind a f) s = _
  simp only [ExceptT.bind, ExceptT.mk, outcome, ExceptT.run, StateT.run, bind, StateT.bind]
  rcases a s with ⟨r, t⟩
  cases r <;> rfl

@[simp] theorem outcome_map (f : α → β) (a : Attempt σ α) (s : σ) :
    (f <$> a).outcome s = ((a.outcome s).1.map f, (a.outcome s).2) := by
  change (ExceptT.map f a) s = _
  simp only [ExceptT.map, ExceptT.mk, outcome, ExceptT.run, StateT.run, bind, StateT.bind]
  rcases a s with ⟨r, t⟩
  cases r <;> rfl

@[simp] theorem outcome_within (get : τ → σ) (set : σ → τ → τ) (a : Attempt σ α) (t : τ) :
    (a.within get set).outcome t =
      ((a.outcome (get t)).1, set (a.outcome (get t)).2 t) := rfl

/-- On a part that is read and written back, a sequence is the sequence of both on the part. -/
theorem within_bind (get : τ → σ) (set : σ → τ → τ) (hget : ∀ s t, get (set s t) = s)
    (hset : ∀ s s' t, set s (set s' t) = set s t) (a : Attempt σ α) (f : α → Attempt σ β) :
    (a >>= f).within get set = a.within get set >>= fun x => (f x).within get set := by
  refine ext_outcome fun t => ?_
  rw [outcome_within, outcome_bind, outcome_bind, outcome_within]
  rcases a.outcome (get t) with ⟨_ | x, s⟩
  · rfl
  · simp only [outcome_within, hget, hset]

end Attempt

end QueryLoom
