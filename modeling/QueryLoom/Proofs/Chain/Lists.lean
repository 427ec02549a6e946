import QueryLoom.Chain.Compile
import QueryLoom.Proofs.Bindings
import QueryLoom.Proofs.Chain.Values

/-!
# Lists that are refused on the way

Two verbs take a list: columns to select, or columns to assign. They take its items up to the first
one that is refused, and what they have taken by then stays. Only the names of the columns to
assign are all checked before the first of them is assigned.
-/

set_option autoImplicit false

namespace QueryLoom

def upToError {ε α : Type} : List (Except ε α) → List α × Except ε Unit
  | [] => ([], .ok ())
  | .error e :: _ => ([], .error e)
  | .ok a :: rest => (a :: (upToError rest).1, (upToError rest).2)

namespace Chain

/-! ## Columns to select -/

def columnsOf (c : Chain) (table : String) : List String := (c.columns.lookup table).getD []

def Selects (c : Chain) (r : Reference) : Prop := r.column ∈ c.columnsOf r.table

def listed (c : Chain) (tablePrefix list : String) : List Reference × Except Error Unit :=
  upToError ((Identifier.splitList list).map (c.reference tablePrefix))

variable {tablePrefix : String} {c : Chain}

theorem selectColumns_outcome (tablePrefix : String) (items : List String) (c : Chain) :
    (selectColumns tablePrefix items).outcome c =
      let refs := upToError (items.map (c.reference tablePrefix))
      (refs.2, refs.1.foldl selecting c) := by
  induction items generalizing c with
  | nil => rfl
  | cons item items ih =>
    rw [selectColumns_cons_outcome, List.map_cons]
    cases hr : c.reference tablePrefix item with
    | error e => rfl
    | ok r =>
      have htable : (c.selecting r).table = c.table := by rw [selecting_eq]
      have hrest : (c.selecting r).reference tablePrefix = c.reference tablePrefix :=
        funext (reference_congr htable)
      simp only [ih, hrest, upToError, List.foldl_cons]

theorem lookup_insertColumn (r : Reference) (columns : List (String × List String))
    (table : String) :
    (insertColumn r columns).lookup table = (columns.lookup table).map fun cols =>
      if table = r.table ∧ r.column ∉ cols then cols ++ [r.column] else cols := by
  induction columns with
  | nil => rfl
  | cons e columns ih =>
    obtain ⟨t, cols⟩ := e
    by_cases ht : t = r.table
    · rw [insertColumn, if_pos ht]
      by_cases htable : table = t
      · by_cases hcol : r.column ∈ cols <;> simp [htable, ht, hcol]
      · have hne : table ≠ r.table := ht ▸ htable
        simp [List.lookup_cons, beq_eq_false_iff_ne.mpr htable, hne]
    · rw [insertColumn, if_neg ht, List.lookup_cons, List.lookup_cons, ih]
      by_cases htable : table = t
      · simp [htable, ht]
      · simp [beq_eq_false_iff_ne.mpr htable]

theorem any_eq_isSome_lookup (columns : List (String × List String)) (table : String) :
    (columns.any fun e => e.1 == table) = (columns.lookup table).isSome := by
  rw [Bool.eq_iff_iff, List.lookup_isSome_iff, List.any_eq_true]
  simp only [beq_iff_eq, @eq_comm _ table]

/-- A table that is registered has no columns yet. -/
theorem lookup_registerTable (c : Chain) (table other : String) :
    (c.registerTable table).columns.lookup other =
      (c.columns.lookup other).or (if other = table then some [] else none) := by
  unfold registerTable
  rw [any_eq_isSome_lookup]
  by_cases hold : (c.columns.lookup table).isSome = true
  · rw [if_pos hold]
    obtain ⟨cols, hcols⟩ := Option.isSome_iff_exists.mp hold
    by_cases hother : other = table <;> simp [hother, hcols]
  · rw [if_neg hold, List.lookup_append, List.lookup_cons]
    by_cases hother : other = table
    · simp [hother]
    · simp [beq_eq_false_iff_ne.mpr hother, hother]

theorem columnsOf_registerTable (c : Chain) (table other : String) :
    (c.registerTable table).columnsOf other = c.columnsOf other := by
  rw [columnsOf, columnsOf, lookup_registerTable]
  by_cases hother : other = table
  · cases c.columns.lookup other <;> simp [hother]
  · simp [hother]

/-- A selected column comes last among those of its table, unless it is there. -/
theorem columnsOf_selecting (c : Chain) (r : Reference) (table : String) :
    (c.selecting r).columnsOf table =
      if table = r.table ∧ r.column ∉ c.columnsOf r.table then c.columnsOf table ++ [r.column]
      else c.columnsOf table := by
  have hcolumns : (c.selecting r).columns = insertColumn r (c.registerTable r.table).columns := rfl
  rw [columnsOf, hcolumns, lookup_insertColumn, ← columnsOf_registerTable c r.table table,
    ← columnsOf_registerTable c r.table r.table, columnsOf, columnsOf]
  by_cases htable : table = r.table
  · have hregistered : ((c.registerTable r.table).columns.lookup r.table).isSome = true := by
      rw [lookup_registerTable]
      cases c.columns.lookup r.table <;> simp
    obtain ⟨cols, hcols⟩ := Option.isSome_iff_exists.mp hregistered
    simp [htable, hcols]
  · simp [htable]

theorem selects_selecting (c : Chain) (r s : Reference) :
    (c.selecting r).Selects s ↔ c.Selects s ∨ s = r := by
  have heq : s = r ↔ s.table = r.table ∧ s.column = r.column := by
    cases s
    cases r
    simp
  rw [Selects, Selects, columnsOf_selecting, heq]
  by_cases htable : s.table = r.table
  · by_cases hold : r.column ∈ c.columnsOf r.table
    · have hmem : s.column = r.column → s.column ∈ c.columnsOf r.table := fun h => h ▸ hold
      simpa [htable, hold] using hmem
    · simp [htable, hold]
  · simp [htable]

theorem insertColumn_eq_self {r : Reference} {columns : List (String × List String)}
    (h : r.column ∈ (columns.lookup r.table).getD []) : insertColumn r columns = columns := by
  induction columns with
  | nil => rfl
  | cons e columns ih =>
    obtain ⟨t, cols⟩ := e
    by_cases ht : t = r.table
    · subst ht
      have hmem : r.column ∈ cols := by simpa using h
      simp [insertColumn, hmem]
    · have hne : (r.table == t) = false := beq_eq_false_iff_ne.mpr (Ne.symm ht)
      rw [List.lookup_cons, hne] at h
      rw [insertColumn, if_neg ht, ih h]

theorem selecting_eq_self {r : Reference} (h : c.Selects r) : c.selecting r = c := by
  have hsome : (c.columns.lookup r.table).isSome = true := by
    unfold Selects columnsOf at h
    cases hcols : c.columns.lookup r.table with
    | none => simp [hcols] at h
    | some cols => rfl
  have hregistered : c.registerTable r.table = c := by
    rw [registerTable, any_eq_isSome_lookup, if_pos hsome]
  rw [selecting_eq, hregistered, insertColumn_eq_self h]

theorem selects_foldl (c : Chain) (refs : List Reference) (s : Reference) :
    (refs.foldl selecting c).Selects s ↔ c.Selects s ∨ s ∈ refs := by
  induction refs generalizing c with
  | nil => simp
  | cons r refs ih => rw [List.foldl_cons, ih, selects_selecting, List.mem_cons, or_assoc]

/-- Selecting changes nothing where everything is selected already. -/
theorem foldl_selecting_eq_self_iff (c : Chain) (refs : List Reference) :
    refs.foldl selecting c = c ↔ ∀ r ∈ refs, c.Selects r := by
  constructor
  · intro heq r hr
    rw [← heq, selects_foldl]
    exact Or.inr hr
  · intro hall
    induction refs with
    | nil => rfl
    | cons r refs ih =>
      rw [List.foldl_cons, selecting_eq_self (hall r (by simp))]
      exact ih fun s hs => hall s (List.mem_cons_of_mem r hs)

/-! ## Columns to assign -/

def scalar (e : String × Value) : Except Error (String × Value) :=
  if e.2.isList then .error (.usage (.listAssigned e.1)) else .ok e

/-- The assignments of a list up to the first that is refused, and the error; none if a name is
refused anywhere in the list. -/
def assignments (pairs : List (String × Value)) : List (String × Value) × Except Error Unit :=
  match pairs.mapM fun p => (Identifier.column p.1).map fun c => (c, p.2) with
  | .error e => ([], .error e)
  | .ok named => upToError ((named.filter fun e => e.1 ≠ "id").map scalar)

def assigning (c : Chain) (es : List (String × Value)) : Chain :=
  { c with payload := ((⟨c.payload⟩ : Bindings).extend ⟨es⟩).entries }

theorem assigning_cons (c : Chain) (e : String × Value) (es : List (String × Value)) :
    c.assigning (e :: es) =
      Chain.assigning { c with payload := Bindings.put e.1 e.2 c.payload } es := rfl

theorem assignColumns_outcome (named : List (String × Value)) (c : Chain) :
    (assignColumns named).outcome c =
      let es := upToError ((named.filter fun e => e.1 ≠ "id").map scalar)
      (es.2, c.assigning es.1) := by
  induction named generalizing c with
  | nil => rfl
  | cons e named ih =>
    obtain ⟨column, v⟩ := e
    rw [assignColumns_cons_outcome]
    by_cases hid : column = "id"
    · rw [if_pos hid, ih, List.filter_cons_of_neg (by simpa using hid)]
    · rw [if_neg hid, List.filter_cons_of_pos (by simpa using hid), List.map_cons, scalar]
      by_cases hv : v.isList = true
      · simp only [hv, if_true, upToError]
        rfl
      · simp only [hv, if_false, Bool.false_eq_true, ih, upToError, assigning_cons]

theorem assign_outcome (pairs : List (String × Value)) (c : Chain) :
    (assign pairs).outcome c = ((assignments pairs).2, c.assigning (assignments pairs).1) := by
  unfold assign assignments
  rw [Attempt.outcome_bind, Attempt.outcome_ofExcept]
  cases pairs.mapM fun p => (Identifier.column p.1).map fun c => (c, p.2) with
  | error e => rfl
  | ok named => exact assignColumns_outcome named c

theorem assigning_eq_self_iff (h : (⟨c.payload⟩ : Bindings).keys.Nodup)
    (es : List (String × Value)) :
    c.assigning es = c ↔
      ∀ column ∈ es.map Prod.fst, c.payload.lookup column = es.reverse.lookup column := by
  have hpayload : c.assigning es = c ↔
      (⟨c.payload⟩ : Bindings).extend ⟨es⟩ = ⟨c.payload⟩ := by
    constructor
    · intro heq
      exact congrArg (fun c : Chain => Bindings.mk c.payload) heq
    · intro heq
      rw [assigning, heq]
  rw [hpayload, Bindings.extend_eq_self_iff h]
  rfl

/-! ## Runs -/

def selectedBy (tablePrefix : String) (c : Chain) : Verb → List Reference
  | .select list => (c.listed tablePrefix list).1
  | _ => []

def assignedBy : Verb → List (String × Value)
  | .assign pairs => (assignments pairs).1
  | _ => []

theorem after_assigned (tablePrefix : String) (v : Verb) (c : Chain) :
    (v.after tablePrefix c).payload = (c.assigning (assignedBy v)).payload := by
  cases v with
  | assign pairs => rw [Verb.after, Verb.apply, assign_outcome, assignedBy]
  | _ => exact after_payload tablePrefix c (by simp)

/-- Of the verbs that have no list, only a join adds to the tables, and it selects nothing. -/
theorem columnsOf_after {v : Verb} (hv : ∀ list, v ≠ .select list) (c : Chain) (table : String) :
    (v.after tablePrefix c).columnsOf table = c.columnsOf table := by
  unfold Verb.after
  cases v with
  | select list => exact absurd rfl (hv list)
  | join kind joined condition =>
    rcases addJoin_outcome tablePrefix kind joined condition with ⟨e, h⟩ | ⟨t, on, -, -, h⟩
    · rw [Verb.apply, h]
    · rw [Verb.apply, h]
      exact columnsOf_registerTable c t table
  | filter connective column operator value =>
    obtain ⟨es, -, ⟨op, r, o, -, -, h, -⟩ | ⟨e, h, -⟩⟩ :=
      addFilter_spec tablePrefix connective column operator value c
    · rw [Verb.apply, h]
      rfl
    · rw [Verb.apply, h]
      rfl
  | orderBy column direction =>
    rw [Verb.apply, orderBy_outcome]
    cases c.reference tablePrefix column <;> rfl
  | groupBy column =>
    rw [Verb.apply, setGroupBy_outcome]
    cases c.reference tablePrefix column <;> rfl
  | groupConcat expr label =>
    rcases addGroupConcat_outcome expr label with ⟨e, h⟩ | ⟨ex, l, -, -, h⟩
    · rw [Verb.apply, h]
    · rw [Verb.apply, h]
      rfl
  | limit l => rfl
  | assign pairs =>
    obtain ⟨payload, hpayload⟩ := assign_state pairs c
    rw [Verb.apply, hpayload]
    rfl

theorem after_selects (v : Verb) (c : Chain) (r : Reference) :
    (v.after tablePrefix c).Selects r ↔ c.Selects r ∨ r ∈ c.selectedBy tablePrefix v := by
  cases v with
  | select list =>
    rw [Verb.after, Verb.apply, selectColumns_outcome]
    exact selects_foldl c _ r
  | _ => simp [Selects, columnsOf_after, selectedBy]

theorem run_assigned (c : Chain) (verbs : List Verb) :
    (c.run tablePrefix verbs).payload = (c.assigning (verbs.flatMap assignedBy)).payload := by
  induction verbs generalizing c with
  | nil => rfl
  | cons v verbs ih =>
    have hhead := after_assigned tablePrefix v c
    simp only [assigning] at ih hhead ⊢
    rw [run, ih, hhead, List.flatMap_cons, Bindings.extend_append]

/-- No verb gives a chain another table, so what a list names does not depend on the verbs before
it. -/
theorem run_selects (c : Chain) (verbs : List Verb) (r : Reference) :
    (c.run tablePrefix verbs).Selects r ↔
      c.Selects r ∨ ∃ v ∈ verbs, r ∈ c.selectedBy tablePrefix v := by
  induction verbs generalizing c with
  | nil => simp [run]
  | cons v verbs ih =>
    have htable : (v.after tablePrefix c).table = c.table := (run_head tablePrefix c [v]).1
    have hreference : (v.after tablePrefix c).reference tablePrefix = c.reference tablePrefix :=
      funext (reference_congr htable)
    have hselected : ∀ w, (v.after tablePrefix c).selectedBy tablePrefix w =
        c.selectedBy tablePrefix w := by
      intro w
      cases w with
      | select list => rw [selectedBy, selectedBy, listed, listed, hreference]
      | _ => rfl
    rw [run, ih, after_selects, or_assoc]
    simp [hselected]

/-- A verb that takes a list does with the items before the first refused one what it does with a
list of them alone, and reports the error. So a refused list of columns leaves the chain as it was
if and only if the columns before the error were selected; and a refused list of assignments does
if and only if a name was refused, or each column before the error had the last of its values
there. A run assigns and selects what its verbs have taken, those that were refused among them. -/
theorem refused_lists (tablePrefix : String) :
    (∀ (c : Chain) (list : String),
      let v := Verb.select list
      let taken := c.listed tablePrefix list
      (v.apply tablePrefix).outcome c = (taken.2, taken.1.foldl selecting c) ∧
        (v.after tablePrefix c = c ↔ ∀ r ∈ taken.1, c.Selects r)) ∧
    (∀ (c : Chain) (pairs : List (String × Value)),
      let v := Verb.assign pairs
      let taken := assignments pairs
      (v.apply tablePrefix).outcome c = (taken.2, c.assigning taken.1) ∧
        (Reachable tablePrefix c → (v.after tablePrefix c = c ↔ ∀ column ∈ taken.1.map Prod.fst,
          c.payload.lookup column = taken.1.reverse.lookup column))) ∧
    ∀ (c : Chain) (verbs : List Verb),
      (c.run tablePrefix verbs).payload = (c.assigning (verbs.flatMap assignedBy)).payload ∧
        ∀ r, (c.run tablePrefix verbs).Selects r ↔
          c.Selects r ∨ ∃ v ∈ verbs, r ∈ c.selectedBy tablePrefix v := by
  refine ⟨fun c list => ?_, fun c pairs => ?_, fun c verbs => ?_⟩
  · have hout := selectColumns_outcome tablePrefix (Identifier.splitList list) c
    refine ⟨hout, ?_⟩
    rw [Verb.after, Verb.apply, hout]
    exact foldl_selecting_eq_self_iff c _
  · have hout := assign_outcome pairs c
    refine ⟨hout, fun hreachable => ?_⟩
    rw [Verb.after, Verb.apply, hout]
    exact assigning_eq_self_iff hreachable.wellFormed.payloadDistinct _
  · exact ⟨run_assigned c verbs, run_selects c verbs⟩

def bulkInsert : Verb :=
  .assign [("name", .text "Ada"), ("tags", .list [.int 1]), ("role", .text "admin")]

def bulkSelect : Verb := .select "email, na-me, role"

/-- The first column is inserted, or selected, although the list was refused. -/
theorem bulk_partial :
    (bulkInsert.apply "").outcome (start .insert "users") =
        (.error (.usage (.listAssigned "tags")),
          (start .insert "users").assigning [("name", .text "Ada")]) ∧
      bulkInsert.after "" (start .insert "users") ≠ start .insert "users" ∧
      (((start .insert "users").run "" [bulkInsert]).compile .mySql).map Compiled.sql =
        .ok "INSERT INTO users (name) VALUES (:name)" ∧
      bulkSelect.accepted "" (start .select "users") = false ∧
      bulkSelect.after "" (start .select "users") ≠ start .select "users" ∧
      (((start .select "users").run "" [bulkSelect]).compile .mySql).map Compiled.sql =
        .ok "SELECT email FROM users" := by
  have hname : Identifier.table "" "users" = .ok "users" := rfl
  have htaken : assignments [("name", .text "Ada"), ("tags", .list [.int 1]),
      ("role", .text "admin")] =
      ([("name", .text "Ada")], .error (.usage (.listAssigned "tags"))) := rfl
  have hlisted : ((start .select "users").listed "" "email, na-me, role").1 =
      [⟨"users", "email"⟩] := by decide
  obtain ⟨hselect, hassign, -⟩ := refused_lists ""
  obtain ⟨hout, hinsert⟩ := hassign (start .insert "users") _
  refine ⟨?_, fun heq => ?_, rfl, by decide, fun heq => ?_, rfl⟩
  · rw [htaken] at hout
    exact hout
  · have hkept := (hinsert (.started .insert hname)).mp heq "name" (by rw [htaken]; simp)
    rw [htaken] at hkept
    cases hkept
  · have hkept := (hselect (start .select "users") _).2.mp heq ⟨"users", "email"⟩
      (by rw [hlisted]; simp)
    cases hkept

end Chain

end QueryLoom
