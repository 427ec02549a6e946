import QueryLoom.Proofs.Database.Session

/-!
# Requests on coupled stores

A request runs on the store of a desk, with a chain of its own or with one of the sessions that
have been begun. What two databases do alike on coupled stores, they do alike on coupled desks: the
same sessions stand on both, and the replies are the same.
-/

set_option autoImplicit false

namespace QueryLoom

variable {σ τ α : Type}

namespace Database

variable {db : Database σ}

/-! ## Requests on chains -/

theorem onChain_bind {β : Type} (a : Attempt Chain α) (f : α → Attempt Chain β) :
    (onChain (a >>= f) : Attempt (Run σ) β) = onChain a >>= fun x => onChain (f x) :=
  Attempt.within_bind Run.chain (fun c run => { run with chain := c }) (fun _ _ => rfl)
    (fun _ _ _ => rfl) a f

theorem withStore_findAll (c : Chain) : c.withStore db.findAll = db.runSelect c := rfl

theorem withStore_query (c : Chain) : c.withStore db.query = db.runMutation c := rfl

theorem findAll_outcome (run : Run σ) :
    db.findAll.outcome run = (((db.runSelect run.chain).outcome run.store).1,
      ⟨.fresh, ((db.runSelect run.chain).outcome run.store).2⟩) := rfl

/-- A row is looked for only if the chain could be made one for it. -/
theorem find_outcome (id : Value) (run : Run σ) :
    (db.find id).outcome run = match db.oneRow run.chain id with
      | (.ok _, c) => (((db.runSelect c).outcome run.store).1.map Fetched.first?,
          ⟨.fresh, ((db.runSelect c).outcome run.store).2⟩)
      | (.error e, c) => (.error e, ⟨c, run.store⟩) := by
  have hfind : db.find id = onChain (do
      if !id.isNull then db.apply (.filter .and "id" "=" id)
      db.apply (.limit .single)) >>= fun _ => db.findAll >>= fun f => pure f.first? := by
    unfold find
    split
    · rw [onChain_bind, bind_assoc]
    · rfl
  rw [hfind, Attempt.outcome_bind, onChain, Attempt.outcome_within, oneRow]
  rcases (do
    if !id.isNull then db.apply (.filter .and "id" "=" id)
    db.apply (.limit .single) : Attempt Chain Unit).outcome run.chain with ⟨_ | _, c⟩
  · rfl
  · simp only [Attempt.outcome_bind, findAll_outcome]
    rcases (db.runSelect c).outcome run.store with ⟨_ | f, store⟩ <;> rfl

theorem oneRow_null (db : Database σ) (c : Chain) {id : Value} (h : id.isNull = true) :
    (db.oneRow c id).1 = .ok () := by
  rw [oneRow, h]
  rfl

theorem oneRow_some (db : Database σ) (c : Chain) {id : Value} (h : id.isNull = false) :
    db.oneRow c id = match (db.apply (.filter .and "id" "=" id)).outcome c with
      | (.ok _, c') => (.ok (), { c' with limit := some .single })
      | (.error e, c') => (.error e, c') := by
  rw [oneRow, h]
  change (db.apply (.filter .and "id" "=" id) >>= fun _ => Chain.setLimit .single).outcome c = _
  rw [Attempt.outcome_bind]
  rcases (db.apply (.filter .and "id" "=" id)).outcome c with ⟨_ | _, c'⟩ <;> rfl

theorem withStore_find (c : Chain) (id : Value) :
    c.withStore (db.find id) = match db.oneRow c id with
      | (.ok _, c') => db.runSelect c' >>= fun f => pure f.first?
      | (.error e, _) => throw e := by
  refine Attempt.ext_outcome fun store => ?_
  rw [Chain.withStore, Attempt.outcome_within, find_outcome]
  rcases db.oneRow c id with ⟨_ | _, c'⟩
  · rfl
  · simp only [Attempt.outcome_bind]
    rcases (db.runSelect c').outcome store with ⟨_ | f, store'⟩ <;> rfl

end Database

/-! ## Desks -/

namespace Desk

def coupling (K : Coupling (Store σ) (Store τ)) (opened : String → Prop) :
    Coupling (Desk σ) (Desk τ) where
  related d d' := d.sessions = d'.sessions ∧ (∀ s ∈ d.sessions, opened s.table) ∧
    K.related d.store d'.store
  spoiled d' := K.spoiled d'.store

variable {K : Coupling (Store σ) (Store τ)} {opened : String → Prop}

theorem simulates_attempt {a : Attempt (Store σ) α} {b : Attempt (Store τ) α}
    (h : K.Attempts True (fun _ => True) a b) (reply : Except Error α → Reply) :
    (coupling K opened).Simulates True (fun _ => True) (attempt reply a) (attempt reply b) := by
  refine ⟨fun d' hd' => h.stays d'.store hd', ?_⟩
  rintro - d d' ⟨hsessions, hopened, hstore⟩ hend
  obtain ⟨hresult, -, hrelated⟩ := h.agrees trivial d.store d'.store hstore hend
  exact ⟨congrArg reply hresult, trivial, hsessions, hopened, hrelated⟩

/-- A session that has begun takes the next place. -/
theorem begin_eq (a : Attempt (Store σ) AlterSession) (d : Desk σ) :
    begin a d = (.began (a.outcome d.store).1,
      ⟨(a.outcome d.store).2, d.sessions ++ (a.outcome d.store).1.toOption.toList⟩) := by
  unfold begin
  rcases a.outcome d.store with ⟨_ | session, store⟩
  · simp [Except.toOption]
  · simp [Except.toOption]

theorem simulates_begin {a : Attempt (Store σ) AlterSession} {b : Attempt (Store τ) AlterSession}
    (h : K.Attempts True (fun s => opened s.table) a b) :
    (coupling K opened).Simulates True (fun _ => True) (begin a) (begin b) := by
  constructor
  · intro d' hd'
    rw [begin_eq]
    exact h.stays d'.store hd'
  · rintro - d d' ⟨hsessions, hopened, hstore⟩ hend
    rw [begin_eq] at hend
    rw [begin_eq, begin_eq]
    obtain ⟨hresult, hpost, hrelated⟩ := h.agrees trivial d.store d'.store hstore hend
    refine ⟨congrArg Reply.began hresult, trivial, ?_, ?_, hrelated⟩
    · simp only [hsessions, hresult]
    · intro s hs
      rcases List.mem_append.mp hs with hold | hnew
      · exact hopened s hold
      · cases hr : (a.outcome d.store).1 with
        | error e => simp [hr, Except.toOption] at hnew
        | ok session =>
          obtain rfl : s = session := by simpa [hr, Except.toOption] using hnew
          exact hpost s hr

theorem simulates_change (i : Nat) {a : Attempt (SessionRun σ) Unit}
    {b : Attempt (SessionRun τ) Unit}
    (h : (AlterSession.coupling K opened).Attempts True (fun _ => True) a b) :
    (coupling K opened).Simulates True (fun _ => True) (change i a) (change i b) := by
  constructor
  · intro d' hd'
    unfold change
    cases d'.sessions[i]? with
    | none => exact hd'
    | some session => exact h.stays ⟨session, d'.store⟩ hd'
  · rintro - d d' ⟨hsessions, hopened, hstore⟩ hend
    unfold change at hend ⊢
    rw [← hsessions] at hend ⊢
    cases hs : d.sessions[i]? with
    | none => exact ⟨rfl, trivial, hsessions, hopened, hstore⟩
    | some session =>
      rw [hs] at hend
      have hmem : opened session.table := hopened session (List.mem_of_getElem? hs)
      obtain ⟨hresult, -, hsession, htable, hrelated⟩ := h.agrees trivial ⟨session, d.store⟩
        ⟨session, d'.store⟩ ⟨rfl, hmem, hstore⟩ hend
      refine ⟨congr (congrArg Reply.altered hresult) hsession, trivial, ?_, ?_, hrelated⟩
      · exact congrArg (d.sessions.set i) hsession
      · intro s hmem'
        rcases List.mem_or_eq_of_mem_set hmem' with hold | rfl
        · exact hopened s hold
        · exact htable

end Desk

end QueryLoom
