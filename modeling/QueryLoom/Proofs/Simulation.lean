import QueryLoom.Proofs.Attempt

/-!
# Simulation

Two programs run side by side on states that are related. The second one may be spoiled on its
way, and stays so; unless it has been spoiled at the end, both give the same result and leave
related states. For attempts the failures are part of the result, and a property can be noted of
the values that a success gives.
-/

set_option autoImplicit false

namespace QueryLoom

structure Coupling (σ τ : Type) where
  related : σ → τ → Prop
  spoiled : τ → Prop

namespace Coupling

variable {σ τ α β : Type}

/-- What is given is not needed for a spoiled program to stay so. -/
structure Simulates (K : Coupling σ τ) (given : Prop) (post : β → Prop) (f : σ → β × σ)
    (g : τ → β × τ) : Prop where
  stays : ∀ t, K.spoiled t → K.spoiled (g t).2
  agrees : given → ∀ s t, K.related s t → ¬ K.spoiled (g t).2 →
    (f s).1 = (g t).1 ∧ post (f s).1 ∧ K.related (f s).2 (g t).2

def Attempts (K : Coupling σ τ) (given : Prop) (post : α → Prop) (a : Attempt σ α)
    (b : Attempt τ α) : Prop :=
  K.Simulates given (fun r => ∀ x, r = .ok x → post x) a.outcome b.outcome

variable {K : Coupling σ τ} {given : Prop} {post : α → Prop} {next : β → Prop}

theorem attempts_ofExcept {r : Except Error α} (h : ∀ x, r = .ok x → post x) :
    K.Attempts given post (ofExcept r) (ofExcept r) := by
  constructor
  · intro t ht
    rw [Attempt.outcome_ofExcept]
    exact ht
  · intro _ s t hst _
    rw [Attempt.outcome_ofExcept, Attempt.outcome_ofExcept]
    exact ⟨rfl, h, hst⟩

theorem attempts_pure {x : α} (h : post x) : K.Attempts given post (pure x) (pure x) :=
  attempts_ofExcept (r := .ok x) fun y hy => by
    cases hy
    exact h

theorem attempts_throw (e : Error) : K.Attempts given post (throw e) (throw e) :=
  attempts_ofExcept (r := .error e) fun _ hy => nomatch hy

theorem attempts_weaken {a : Attempt σ α} {b : Attempt τ α} {given' : Prop} {post' : α → Prop}
    (h : K.Attempts given post a b) (hgiven : given' → given) (hpost : ∀ x, post x → post' x) :
    K.Attempts given' post' a b := by
  refine ⟨h.stays, fun hg s t hst hend => ?_⟩
  obtain ⟨hresult, hx, hrelated⟩ := h.agrees (hgiven hg) s t hst hend
  exact ⟨hresult, fun x hok => hpost x (hx x hok), hrelated⟩

/-- What is noted of the first value is given to what follows. -/
theorem attempts_bind {a : Attempt σ α} {b : Attempt τ α} {f : α → Attempt σ β}
    {g : α → Attempt τ β} (hab : K.Attempts given post a b)
    (hfg : ∀ x, K.Attempts (given ∧ post x) next (f x) (g x)) :
    K.Attempts given next (a >>= f) (b >>= g) := by
  constructor
  · intro t ht
    have hmid := hab.stays t ht
    rw [Attempt.outcome_bind]
    rcases hb : b.outcome t with ⟨_ | x, u⟩
    · rwa [hb] at hmid
    · rw [hb] at hmid
      exact (hfg x).stays u hmid
  · intro hgiven s t hst hend
    rw [Attempt.outcome_bind] at hend
    rw [Attempt.outcome_bind, Attempt.outcome_bind]
    have hmid : ¬ K.spoiled (b.outcome t).2 := by
      intro hsp
      rcases hb : b.outcome t with ⟨_ | x, u⟩
      · rw [hb] at hend hsp
        exact hend hsp
      · rw [hb] at hend hsp
        exact hend ((hfg x).stays u hsp)
    obtain ⟨hresult, hpost, hrelated⟩ := hab.agrees hgiven s t hst hmid
    rcases ha : a.outcome s with ⟨r, s'⟩
    rcases hb : b.outcome t with ⟨r', u⟩
    rw [ha, hb] at hresult hrelated
    rw [ha] at hpost
    rw [hb] at hend
    obtain rfl : r = r' := hresult
    cases r with
    | error e => exact ⟨rfl, (fun _ h => nomatch h), hrelated⟩
    | ok x => exact (hfg x).agrees ⟨hgiven, hpost x rfl⟩ s' u hrelated hend

theorem attempts_seq {a : Attempt σ α} {b : Attempt τ α} {f : α → Attempt σ β}
    {g : α → Attempt τ β} (hab : K.Attempts given (fun _ => True) a b)
    (hfg : ∀ x, K.Attempts given next (f x) (g x)) :
    K.Attempts given next (a >>= f) (b >>= g) :=
  attempts_bind hab fun x => attempts_weaken (hfg x) And.left fun _ h => h

theorem attempts_if {a : Attempt σ Unit} {b : Attempt τ Unit} {p : Prop} [Decidable p]
    (h : p → K.Attempts given (fun _ => True) a b) :
    K.Attempts given (fun _ => True) (if p then a else pure ()) (if p then b else pure ()) := by
  split
  · rename_i hp
    exact h hp
  · exact attempts_pure trivial

/-- What is decided without the state is decided alike. -/
theorem attempts_ofExcept_bind {r : Except Error α} {f : α → Attempt σ β} {g : α → Attempt τ β}
    (h : ∀ x, r = .ok x → K.Attempts given next (f x) (g x)) :
    K.Attempts given next (ofExcept r >>= f) (ofExcept r >>= g) := by
  cases r with
  | error e => exact attempts_throw e
  | ok x => exact h x rfl

end Coupling

end QueryLoom
