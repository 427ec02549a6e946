import QueryLoom.Proofs.Chain.Refusal
import QueryLoom.Proofs.Database.Find

/-!
# What a terminal verb leaves of a chain

A terminal verb takes the chain away and leaves a fresh one, whatever comes of it: rows, no
statement at all, or an error of the client. One failure comes before the chain is taken. An
identifier is attached to the chain as a filter, and if that is refused the chain stays, with all
that it had and with what the filter has bound.
-/

set_option autoImplicit false

namespace QueryLoom

inductive Terminal where
  | findAll
  | find (id : Value)
  | row
  | query
  deriving Repr

/-- There is an identifier to be attached, and it cannot be: the chain has no table that it could be
of, or it is a list with a list in it. -/
def Terminal.Refused (c : Chain) : Terminal → Prop
  | .find id => id.isNull = false ∧ (c.table = none ∨ id.isNested = true)
  | _ => False

variable {σ : Type}

namespace Chain

theorem reference_id_none {c : Chain} (ht : c.table = none) (tablePrefix : String) :
    c.reference tablePrefix "id" = .error (.usage .noTable) := by
  have hparse : ColumnRef.parse tablePrefix "id" = .ok ⟨none, "id"⟩ := rfl
  simp [reference, hparse, Except.bind, resolve, requireTable, ht, Except.map]

variable {tablePrefix : String} {c : Chain} {id : Value} {e : Error}

/-- An identifier is refused only for the want of a table, or for a list in it. -/
theorem id_refused_cases (h : c.FilterRefused tablePrefix "id" "=" id e) :
    c.table = none ∧ e = .usage .noTable ∨ id.isNested = true ∧ e = .usage .nestedList := by
  have hequal : Operator.ofText? "=" = some .equal := by decide
  cases h with
  | reference hr =>
    cases ht : c.table with
    | none =>
      rw [reference_id_none ht] at hr
      exact Or.inl ⟨rfl, (Except.error.inj hr).symm⟩
    | some t =>
      rw [reference_id ht] at hr
      cases hr
  | operator hop =>
    rw [hequal] at hop
    cases hop
  | needsNull hop honly =>
    rw [hequal] at hop
    cases hop
    cases honly
  | nested hnested => exact Or.inr ⟨hnested, rfl⟩

theorem id_refused_iff :
    (Verb.filter .and "id" "=" id).accepted tablePrefix c = false ↔
      c.table = none ∨ id.isNested = true := by
  rw [filter_refused_iff]
  constructor
  · rintro ⟨e, he⟩
    exact (id_refused_cases he).imp And.left And.left
  · rintro (ht | hnested)
    · exact ⟨_, .reference (reference_id_none ht tablePrefix)⟩
    · exact ⟨_, .nested hnested⟩

end Chain

namespace Database

variable {db : Database σ}

def finish (db : Database σ) : Terminal → Run σ → Reply × Run σ
  | .findAll, run =>
    let (result, run) := db.findAll.outcome run
    (.fetched result, run)
  | .find id, run =>
    let (result, run) := (db.find id).outcome run
    (.row result, run)
  | .row, run =>
    let (result, run) := db.row.outcome run
    (.row result, run)
  | .query, run =>
    let (result, run) := db.query.outcome run
    (.written result, run)

theorem find_chain_of_ok {id : Value} {run : Run σ} (h : (db.oneRow run.chain id).1 = .ok ()) :
    ((db.find id).outcome run).2.chain = .fresh := by
  rw [find_outcome]
  rcases hrow : db.oneRow run.chain id with ⟨e | _, c⟩
  · rw [hrow] at h
    cases h
  · rfl

theorem oneRow_ok (db : Database σ) {c : Chain} {id : Value} (hnull : id.isNull = false)
    (h : (Verb.filter .and "id" "=" id).accepted db.config.tablePrefix c = true) :
    (db.oneRow c id).1 = .ok () := by
  rw [oneRow_some db c hnull]
  rcases hout : (db.apply (.filter .and "id" "=" id)).outcome c with ⟨e | _, c'⟩
  · rw [Verb.accepted_eq hout] at h
    cases h
  · rfl

theorem finish_fresh {t : Terminal} {run : Run σ} (h : ¬ t.Refused run.chain) :
    (db.finish t run).2.chain = .fresh := by
  cases t with
  | findAll => rfl
  | row =>
    have hnull : Value.null.isNull = true := rfl
    exact find_chain_of_ok (oneRow_null db run.chain hnull)
  | query => rfl
  | find id =>
    refine find_chain_of_ok ?_
    by_cases hnull : id.isNull = true
    · exact oneRow_null db run.chain hnull
    · rw [Bool.not_eq_true] at hnull
      have haccepted : (Verb.filter .and "id" "=" id).accepted db.config.tablePrefix run.chain =
          true := by
        rw [← Bool.not_eq_false, Chain.id_refused_iff]
        exact fun hrefused => h ⟨hnull, hrefused⟩
      exact oneRow_ok db hnull haccepted

theorem finish_refused (db : Database σ) {t : Terminal} {run : Run σ}
    (h : t.Refused run.chain) :
    ∃ id e es, t = .find id ∧ FreshEntries run.chain.bindings es ∧
      es.map Prod.snd = run.chain.strandedBy db.config.tablePrefix "id" "=" id ∧
      (Verb.filter .and "id" "=" id).after db.config.tablePrefix run.chain =
        run.chain.binding es ∧
      db.finish t run = (.row (.error (.usage e)), ⟨run.chain.binding es, run.store⟩) := by
  cases t with
  | findAll => cases h
  | row => cases h
  | query => cases h
  | find id =>
    obtain ⟨hnull, hrefused⟩ := h
    obtain ⟨e, es, he, hes, hout, hvals⟩ :=
      Chain.filter_refused_outcome (Chain.id_refused_iff.mpr hrefused)
    obtain ⟨u, rfl⟩ : ∃ u, e = .usage u :=
      (Chain.id_refused_cases he).elim (fun h => ⟨_, h.2⟩) (fun h => ⟨_, h.2⟩)
    refine ⟨id, u, es, rfl, hes, hvals, by rw [Verb.after, hout], ?_⟩
    rw [finish, find_outcome, oneRow_some db run.chain hnull, apply, hout]

/-! ## A builder from one call to the next -/

inductive Use where
  | verb (v : Verb)
  | finish (t : Terminal)

def use (db : Database σ) : Use → Run σ → Run σ
  | .verb v, run => { run with chain := v.after db.config.tablePrefix run.chain }
  | .finish t, run => (db.finish t run).2

def uses (db : Database σ) (run : Run σ) (calls : List Use) : Run σ :=
  calls.foldl (fun run call => db.use call run) run

theorem uses_verbs (run : Run σ) (verbs : List Verb) :
    (db.uses run (verbs.map .verb)).chain = run.chain.run db.config.tablePrefix verbs := by
  induction verbs generalizing run with
  | nil => rfl
  | cons v verbs ih => exact ih _

/-- Whatever the client does, a terminal verb leaves a fresh chain unless it is refused on one that
is not, and a later use of the builder has then nothing but its own verbs. If it is refused, its
reply is an error, it has asked nothing of the client, and the whole chain stays, with the values
that the identifier has stranded. -/
theorem finish_resets (db : Database σ) (t : Terminal) (run : Run σ) :
    ((db.finish t run).2.chain = .fresh ↔ ¬ t.Refused run.chain ∨ run.chain = .fresh) ∧
      (¬ t.Refused run.chain → ∀ verbs, (db.uses run (.finish t :: verbs.map .verb)).chain =
        Chain.fresh.run db.config.tablePrefix verbs) ∧
      (t.Refused run.chain → ∃ id e es, t = .find id ∧ FreshEntries run.chain.bindings es ∧
        es.map Prod.snd = run.chain.strandedBy db.config.tablePrefix "id" "=" id ∧
        (Verb.filter .and "id" "=" id).after db.config.tablePrefix run.chain =
          run.chain.binding es ∧
        db.finish t run = (.row (.error (.usage e)), ⟨run.chain.binding es, run.store⟩)) := by
  refine ⟨⟨fun hfresh => ?_, fun h => ?_⟩, fun haccepted verbs => ?_, finish_refused db⟩
  · by_cases hrefused : t.Refused run.chain
    · obtain ⟨id, e, es, -, -, -, -, hfinish⟩ := finish_refused db hrefused
      rw [hfinish] at hfresh
      have hentries : run.chain.bindings.entries ++ es = [] :=
        congrArg (fun c => c.bindings.entries) hfresh
      obtain rfl : es = [] := (List.append_eq_nil_iff.mp hentries).2
      exact Or.inr (by simpa using hfresh)
    · exact Or.inl hrefused
  · by_cases hrefused : t.Refused run.chain
    · have hfresh : run.chain = .fresh := h.resolve_left (not_not.mpr hrefused)
      obtain ⟨id, e, es, -, -, hvals, -, hfinish⟩ := finish_refused db hrefused
      have hnone : run.chain.strandedBy db.config.tablePrefix "id" "=" id = [] := by
        rw [Chain.strandedBy, Chain.reference_id_none (by rw [hfresh]; rfl)]
      rw [hnone, List.map_eq_nil_iff] at hvals
      rw [hfinish, hvals, Chain.binding_nil, hfresh]
    · exact finish_fresh hrefused
  · rw [← finish_fresh haccepted]
    exact uses_verbs _ verbs

end Database

namespace Script

/-- A list in the place of an identifier leaves the filter on admins where it is. -/
theorem find_nested :
    let c := (Chain.start .select "users").run "" [.filter .and "role" "=" (.text "admin")]
    let t := Terminal.find (.list [.list [.int 1]])
    t.Refused c ∧ c.filters ≠ [] ∧
      ∃ e, database.finish t ⟨c, database.openStore {}⟩ =
        (.row (.error (.usage e)), ⟨c, database.openStore {}⟩) := by
  intro c t
  have hrefused : t.Refused c := ⟨rfl, Or.inr rfl⟩
  obtain ⟨-, -, hkeep⟩ := Database.finish_resets database t ⟨c, database.openStore {}⟩
  obtain ⟨id, e, es, hid, -, hvals, -, hfinish⟩ := hkeep hrefused
  obtain rfl : .list [.list [.int 1]] = id := Terminal.find.inj hid
  obtain rfl : es = [] := List.map_eq_nil_iff.mp hvals
  exact ⟨hrefused, by decide, e, hfinish⟩

end Script

namespace Database

variable {db : Database σ}

theorem use_reachable {run : Run σ} (h : Chain.Reachable db.config.tablePrefix run.chain)
    (call : Use) : Chain.Reachable db.config.tablePrefix (db.use call run).chain := by
  cases call with
  | verb v => exact h.after v
  | finish t =>
    by_cases hrefused : t.Refused run.chain
    · obtain ⟨id, e, es, -, -, -, hafter, hfinish⟩ := finish_refused db hrefused
      rw [use, hfinish, ← hafter]
      exact h.after _
    · rw [use, finish_fresh hrefused]
      exact .left

/-- What a builder comes to between its calls are the chains that verbs alone can make. -/
theorem uses_reachable {run : Run σ} (h : Chain.Reachable db.config.tablePrefix run.chain)
    (calls : List Use) : Chain.Reachable db.config.tablePrefix (db.uses run calls).chain := by
  induction calls generalizing run with
  | nil => exact h
  | cons call calls ih => exact ih (use_reachable h call)

end Database

end QueryLoom
