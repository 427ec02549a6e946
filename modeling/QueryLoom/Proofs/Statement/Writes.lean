import QueryLoom.Proofs.Chain.Payload
import QueryLoom.Proofs.Statement.Keys
import QueryLoom.Proofs.Statement.Tokens

/-!
# What a write says of its payload

An INSERT and an UPDATE are read token by token: the table, the columns, and for each column the
placeholder that stands for its value. What is read of a compiled write are the columns of the
payload, each of them once and with the placeholder of its own name, and to that name the value of
the column is bound. A write without a payload is refused.
-/

set_option autoImplicit false

namespace QueryLoom

open Condition

/-- What a write asks for: columns of a table, for each column the name of its value, and what
follows behind them. -/
structure Written where
  table : String
  columns : List String
  keys : List String
  rest : List Token
  deriving DecidableEq, Repr

namespace Written
open Chain

/-! ## Reading a write -/

def word? : List Token → Option (String × List Token)
  | .word w :: ts => some (w, ts)
  | _ => none

def placeholder? : List Token → Option (String × List Token)
  | .placeholder k :: ts => some (k, ts)
  | _ => none

def assignment? (ts : List Token) : Option ((String × String) × List Token) := do
  let (column, ts) ← word? ts
  let ts ← List.isPrefixOf? [.symbol "="] ts
  let (key, ts) ← placeholder? ts
  return ((column, key), ts)

def upTo {α : Type} (item? : List Token → Option (α × List Token)) :
    Nat → List Token → Option (List α × List Token)
  | 0, _ => none
  | n + 1, ts => do
    let (a, ts) ← item? ts
    match List.isPrefixOf? [.stray ','] ts with
    | some ts => do
      let (as, ts) ← upTo item? n ts
      return (a :: as, ts)
    | none => return ([a], ts)

def items? {α : Type} (item? : List Token → Option (α × List Token)) (ts : List Token) :
    Option (List α × List Token) := upTo item? (ts.length + 1) ts

def insert? (ts : List Token) : Option Written := do
  let ts ← List.isPrefixOf? [.word "INSERT", .word "INTO"] ts
  let (table, ts) ← word? ts
  let ts ← List.isPrefixOf? [.opening] ts
  let (columns, ts) ← items? word? ts
  let ts ← List.isPrefixOf? [.closing, .word "VALUES", .opening] ts
  let (keys, ts) ← items? placeholder? ts
  let rest ← List.isPrefixOf? [.closing] ts
  return ⟨table, columns, keys, rest⟩

def update? (ts : List Token) : Option Written := do
  let ts ← List.isPrefixOf? [.word "UPDATE"] ts
  let (table, ts) ← word? ts
  let ts ← List.isPrefixOf? [.word "SET"] ts
  let (pairs, rest) ← items? assignment? ts
  return ⟨table, pairs.map Prod.fst, pairs.map Prod.snd, rest⟩

def read? : Operation → List Token → Option Written
  | .insert, ts => insert? ts
  | .update, ts => update? ts
  | _, _ => none

variable {α : Type} (item? : List Token → Option (α × List Token)) (tokens : α → List Token)
  {as : List α} {ts : List Token}

@[simp]
theorem isPrefixOf?_append (front ts : List Token) :
    List.isPrefixOf? front (front ++ ts) = some ts :=
  List.isPrefixOf?_eq_some_iff_append_eq.mpr rfl

theorem upTo_eq (hitem : ∀ a ∈ as, ∀ ts, item? (tokens a ++ ts) = some (a, ts)) (hne : as ≠ [])
    (hts : List.isPrefixOf? [Token.stray ','] ts = none) {n : Nat} (hn : as.length ≤ n) :
    upTo item? n (commaTokens tokens as ++ ts) = some (as, ts) := by
  induction as generalizing n with
  | nil => exact absurd rfl hne
  | cons a as ih =>
    obtain ⟨n, rfl⟩ := Nat.exists_eq_add_one.mpr (Nat.lt_of_lt_of_le (by simp) hn)
    have hfirst := hitem a (by simp)
    cases as with
    | nil => simp [upTo, commaTokens, hfirst, hts]
    | cons a' as =>
      have hmore := ih (fun b hb => hitem b (List.mem_cons_of_mem a hb)) (by simp)
        (Nat.le_of_succ_le_succ hn)
      have hcomma := isPrefixOf?_append [.stray ','] (commaTokens tokens (a' :: as) ++ ts)
      rw [List.singleton_append] at hcomma
      rw [commaTokens, List.append_assoc, List.cons_append, upTo, hfirst]
      · simp [hcomma, hmore]
      · simp

theorem length_commaTokens (as : List α) :
    as.length ≤ (commaTokens tokens as).length + 1 := by
  induction as with
  | nil => simp
  | cons a as ih =>
    cases as with
    | nil => simp
    | cons a' as =>
      simp only [commaTokens, List.length_append, List.length_cons] at ih ⊢
      omega

theorem items?_eq (hitem : ∀ a ∈ as, ∀ ts, item? (tokens a ++ ts) = some (a, ts)) (hne : as ≠ [])
    (hts : List.isPrefixOf? [Token.stray ','] ts = none) :
    items? item? (commaTokens tokens as ++ ts) = some (as, ts) := by
  have hlength := length_commaTokens tokens as
  refine upTo_eq item? tokens hitem hne hts ?_
  rw [List.length_append]
  omega

end Written

namespace Chain

variable {c : Chain} {d : Dialect} {table : String}

def assignedColumns (c : Chain) : List String := c.payload.map Prod.fst

/-! ## Tokens of a write -/

def wordTokens (w : String) : List Token := [.word w]

def placeholderTokens (k : String) : List Token := [.placeholder k]

def assignmentTokens (column : String) : List Token :=
  [.word column, .symbol "=", .placeholder column]

def returningTokens : Dialect → List Token
  | .postgres => [.word "RETURNING", .stray '*']
  | .mySql => []

def insertTokens (c : Chain) (d : Dialect) (table : String) : List Token :=
  [.word "INSERT", .word "INTO"] ++ .word table :: ([.opening] ++
    (commaTokens wordTokens c.assignedColumns ++ ([.closing, .word "VALUES", .opening] ++
      (commaTokens placeholderTokens c.assignedColumns ++ ([.closing] ++ returningTokens d)))))

def updateTokens (c : Chain) (table : String) : List Token :=
  [.word "UPDATE"] ++ .word table :: ([.word "SET"] ++
    (commaTokens assignmentTokens c.assignedColumns ++ c.whereTokens))

theorem commaTokens_map {α β : Type} (f : α → β) (tokens : β → List Token) (as : List α) :
    commaTokens tokens (as.map f) = commaTokens (fun a => tokens (f a)) as := by
  induction as with
  | nil => rfl
  | cons a as ih =>
    cases as with
    | nil => rfl
    | cons a' as =>
      rw [List.map_cons] at ih
      simp only [List.map_cons, commaTokens, ih]

theorem lex_placeholderText {k : String} (hk : IsIdentifier k) {rest : List Char}
    (hr : Text.Stops isWordPart rest) :
    lex ((placeholder k).toList ++ rest) = placeholderTokens k ++ lex rest := by
  have htext : (placeholder k).toList ++ rest = ':' :: (k.toList ++ rest) := by simp [placeholder]
  rw [htext, lex_placeholder hk.isName.isNamePart (stops_weaken hr)]
  rfl

theorem lex_assignment {column : String} (hcolumn : IsIdentifier column) {rest : List Char}
    (hr : Text.Stops isWordPart rest) :
    lex ((assignment column).toList ++ rest) = assignmentTokens column ++ lex rest := by
  have htext : (assignment column).toList ++ rest =
      column.toList ++ ' ' :: ("=".toList ++ ' ' :: ((placeholder column).toList ++ rest)) := by
    simp [assignment]
  rw [htext, lex_keyword hcolumn.isWord,
    lex_symbol (by decide) (by decide) (Text.stops_cons (by decide) _), lex_space,
    lex_placeholderText hcolumn hr]
  rfl

theorem assignedColumns_isIdentifier (hc : c.WellFormed) :
    ∀ k ∈ c.assignedColumns, IsIdentifier k := by
  intro k hk
  obtain ⟨e, he, rfl⟩ := List.mem_map.mp hk
  exact hc.payload e he

theorem lex_insertTail (d : Dialect) :
    Text.Stops isWordPart (insertTail d).toList ∧
      lex (insertTail d).toList = [.closing] ++ returningTokens d := by
  have hreturning : IsWord "RETURNING" :=
    isWord_literal 'R' ['E', 'T', 'U', 'R', 'N', 'I', 'N', 'G'] rfl rfl rfl
  cases d with
  | mySql =>
    have htext : (insertTail .mySql).toList = [')'] := rfl
    rw [htext, lex_closing, lex_nil]
    exact ⟨Text.stops_cons (by decide) _, rfl⟩
  | postgres =>
    have htext : (insertTail .postgres).toList =
        ')' :: ' ' :: ("RETURNING".toList ++ ' ' :: ['*']) := rfl
    rw [htext, lex_closing, lex_space, lex_keyword hreturning, lex_star, lex_nil]
    exact ⟨Text.stops_cons (by decide) _, rfl⟩

theorem lex_insertStatement (hc : c.WellFormed) (hne : c.assignedColumns ≠ [])
    (ht : IsIdentifier table) (d : Dialect) :
    lex (c.insertStatement d table).toList = c.insertTokens d table := by
  have hinsert : IsWord "INSERT" := isWord_literal 'I' ['N', 'S', 'E', 'R', 'T'] rfl rfl rfl
  have hinto : IsWord "INTO" := isWord_literal 'I' ['N', 'T', 'O'] rfl rfl rfl
  have hvalues : IsWord "VALUES" := isWord_literal 'V' ['A', 'L', 'U', 'E', 'S'] rfl rfl rfl
  have hnames := assignedColumns_isIdentifier hc
  obtain ⟨hstops, htail⟩ := lex_insertTail d
  have hcolumns := fun rest => lex_commas (fun k => k) wordTokens
    (fun k hk _ hr => lex_word (hnames k hk).isWord hr) hne
    (Text.stops_cons (c := ')') (by decide) rest)
  have hkeys := lex_commas placeholder placeholderTokens
    (fun k hk _ hr => lex_placeholderText (hnames k hk) hr) hne hstops
  have htext : (c.insertStatement d table).toList =
      "INSERT".toList ++ ' ' :: ("INTO".toList ++ ' ' :: (table.toList ++ ' ' :: '(' ::
        ((", ".intercalate (c.assignedColumns.map fun k => k)).toList ++ ')' :: ' ' ::
          ("VALUES".toList ++ ' ' :: '(' ::
            ((", ".intercalate (c.assignedColumns.map placeholder)).toList ++
              (insertTail d).toList))))) := by
    have hhead : c.insertHead table =
        "INSERT INTO " ++ table ++ " (" ++ ", ".intercalate c.assignedColumns ++ ") VALUES (" := rfl
    rw [insertStatement_eq, hhead, ← assignedColumns, List.map_id']
    simp only [String.toList_append, List.append_assoc]
    rfl
  rw [htext, lex_keyword hinsert, lex_keyword hinto, lex_keyword ht.isWord, lex_opening, hcolumns,
    lex_closing, lex_space, lex_keyword hvalues, lex_opening, hkeys, htail]
  rfl

theorem lex_updateStatement (hc : c.WellFormed) (hne : c.assignedColumns ≠ [])
    (ht : IsIdentifier table) : lex (c.updateStatement table).toList = c.updateTokens table := by
  have hupdate : IsWord "UPDATE" := isWord_literal 'U' ['P', 'D', 'A', 'T', 'E'] rfl rfl rfl
  have hset : IsWord "SET" := isWord_literal 'S' ['E', 'T'] rfl rfl rfl
  have hnames := assignedColumns_isIdentifier hc
  have hpairs := lex_commas assignment assignmentTokens
    (fun k hk _ hr => lex_assignment (hnames k hk) hr) hne
    (Text.stops_cons (c := ' ') (by decide) c.whereClause.toList)
  have htext : (c.updateStatement table).toList =
      "UPDATE".toList ++ ' ' :: (table.toList ++ ' ' :: ("SET".toList ++ ' ' ::
        ((", ".intercalate (c.assignedColumns.map assignment)).toList ++
          ' ' :: c.whereClause.toList))) := by
    simp [updateStatement, assignedColumns, Function.comp_def]
  rw [htext, lex_keyword hupdate, lex_keyword ht.isWord, lex_keyword hset, hpairs, lex_space,
    lex_whereTokens hc]
  rfl

/-! ## The payload of a run -/

theorem read_insertTokens (hne : c.assignedColumns ≠ []) (d : Dialect) (table : String) :
    Written.read? .insert (c.insertTokens d table) =
      some ⟨table, c.assignedColumns, c.assignedColumns, returningTokens d⟩ := by
  have hcolumns := fun ts (hts : List.isPrefixOf? [Token.stray ','] ts = none) =>
    Written.items?_eq Written.word? wordTokens (fun _ _ _ => rfl) hne hts
  have hkeys := fun ts (hts : List.isPrefixOf? [Token.stray ','] ts = none) =>
    Written.items?_eq Written.placeholder? placeholderTokens (fun _ _ _ => rfl) hne hts
  simp only [Written.read?, Written.insert?, insertTokens, Written.isPrefixOf?_append,
    Written.word?, Option.bind_eq_bind, Option.bind_some]
  rw [hcolumns _ rfl, Option.bind_some, Written.isPrefixOf?_append, Option.bind_some, hkeys _ rfl,
    Option.bind_some, Written.isPrefixOf?_append]
  rfl

theorem read_updateTokens (hne : c.assignedColumns ≠ []) (table : String) :
    Written.read? .update (c.updateTokens table) =
      some ⟨table, c.assignedColumns, c.assignedColumns, c.whereTokens⟩ := by
  have hwhere : List.isPrefixOf? [.stray ','] c.whereTokens = none := by
    unfold whereTokens
    split <;> rfl
  have hitem : ∀ p ∈ c.assignedColumns.map fun k => (k, k), ∀ ts,
      Written.assignment? (assignmentTokens p.1 ++ ts) = some (p, ts) := by
    intro p hp ts
    obtain ⟨k, -, rfl⟩ := List.mem_map.mp hp
    rfl
  have hpairs := Written.items?_eq Written.assignment? (fun p => assignmentTokens p.1) hitem
    (by simpa using hne) hwhere
  rw [commaTokens_map] at hpairs
  simp only [Written.read?, Written.update?, updateTokens, Written.isPrefixOf?_append,
    Written.word?, Option.bind_eq_bind, Option.bind_some]
  rw [hpairs]
  simp [Function.comp_def]

def trailingTokens (c : Chain) (d : Dialect) : Operation → List Token
  | .insert => returningTokens d
  | _ => c.whereTokens

theorem start_payload (op : Operation) (table : String) : (start op table).payload = [] := by
  simp [start, fresh, registerTable]

/-- Of a write that has something to write, the compiled statement is read as its payload. -/
theorem compile_written {op : Operation} (hop : op = .insert ∨ op = .update) (hc : c.WellFormed)
    (htable : c.table = some table) (hoperation : c.operation = some op) (hne : c.payload ≠ [])
    (d : Dialect) :
    ∃ q, c.compile d = .ok q ∧
      Written.read? op (lex q.sql.toList) =
        some ⟨table, c.assignedColumns, c.assignedColumns, c.trailingTokens d op⟩ ∧
      ∀ e ∈ c.payload, q.bindings.get? e.1 = some e.2 := by
  have hcolumns : c.assignedColumns ≠ [] := by simpa [assignedColumns] using hne
  have ht := hc.table table htable
  have hvalues := (compiledBindings_resolves hc.payloadDistinct op).payload hop
  rcases hop with rfl | rfl
  · have hs : c.statement d table .insert = .ok (c.insertStatement d table) :=
      statement_eq_ok_iff.mpr ⟨fun _ => hne, rfl⟩
    refine ⟨_, by rw [compile_eq htable hoperation, hs]; rfl, ?_, hvalues⟩
    rw [String.toList_ofList, lex_collapse, lex_insertStatement hc hcolumns ht,
      read_insertTokens hcolumns]
    rfl
  · have hs : c.statement d table .update = .ok (c.updateStatement table) :=
      statement_eq_ok_iff.mpr ⟨fun _ => hne, rfl⟩
    refine ⟨_, by rw [compile_eq htable hoperation, hs]; rfl, ?_, hvalues⟩
    rw [String.toList_ofList, lex_collapse, lex_updateStatement hc hcolumns ht,
      read_updateTokens hcolumns]
    rfl

theorem compile_refused_iff {op : Operation} (hop : op = .insert ∨ op = .update)
    (hc : c.WellFormed) (htable : c.table = some table) (hoperation : c.operation = some op)
    (d : Dialect) : (∃ e, e.isUsage = true ∧ c.compile d = .error e) ↔ c.payload = [] := by
  constructor
  · rintro ⟨e, -, he⟩
    by_contra hne
    obtain ⟨q, hq, -⟩ := compile_written hop hc htable hoperation hne d
    rw [hq] at he
    cases he
  · intro hnone
    rw [compile_eq htable hoperation]
    rcases hop with rfl | rfl <;>
      exact ⟨_, rfl, by rw [statement, if_pos (by simp [hnone])]; rfl⟩

/-- Whatever verbs a write has had, the columns of its payload are distinct names, none of them
`id`, and no value is a list. If all its lists of assignments were accepted, the columns stand in
the order of their first mention, each with the value that was given last. The statement is refused
if and only if the payload is empty, and else the columns are read in it, each once and with the
placeholder to which its value is bound. -/
theorem run_written {op : Operation} (hop : op = .insert ∨ op = .update)
    {tablePrefix name table : String} (ht : Identifier.table tablePrefix name = .ok table)
    (verbs : List Verb) :
    let c := (start op table).run tablePrefix verbs
    (c.assignedColumns.Nodup ∧
        ∀ e ∈ c.payload, IsIdentifier e.1 ∧ e.1 ≠ "id" ∧ e.2.isList = false) ∧
      (AssignmentsAccepted tablePrefix (start op table) verbs →
        let es := verbs.flatMap Verb.given
        c.assignedColumns = (es.map Prod.fst).eraseDups ∧
          ∀ column, c.payload.lookup column = es.reverse.lookup column) ∧
      ∀ d, ((∃ e, e.isUsage = true ∧ c.compile d = .error e) ↔ c.payload = []) ∧
        (c.payload ≠ [] → ∃ q, c.compile d = .ok q ∧
          Written.read? op (lex q.sql.toList) =
            some ⟨table, c.assignedColumns, c.assignedColumns, c.trailingTokens d op⟩ ∧
          ∀ e ∈ c.payload, q.bindings.get? e.1 = some e.2) := by
  intro c
  have hwell : c.WellFormed := run_wellFormed (start_wellFormed (Identifier.table_ok ht)) verbs
  obtain ⟨htable, hoperation⟩ := run_start_head tablePrefix op table verbs
  have hassignable : Assignable c.payload :=
    run_assignable (by simp [Assignable, start_payload]) verbs
  refine ⟨⟨hwell.payloadDistinct, fun e he => ⟨hwell.payload e he, hassignable e he⟩⟩,
    fun haccepted => ?_, fun d => ⟨compile_refused_iff hop hwell htable hoperation d,
      fun hne => compile_written hop hwell htable hoperation hne d⟩⟩
  rw [← flatMap_assignedBy haccepted]
  exact run_payload_eq (start_payload op table) verbs

def respelled : List Verb :=
  [.assign [("First Name", .text "Ada"), (" ID ", .int 7)], .filter .and "id" "=" (.int 3),
    .assign [("role", .null), ("FIRST_NAME", .text "Grace")]]

theorem respelled_written :
    let c := (start .update "users").run "" respelled
    c.assignedColumns = ["first_name", "role"] ∧
      c.payload.lookup "first_name" = some (.text "Grace") ∧
      ∃ q, c.compile .mySql = .ok q ∧
        Written.read? .update (lex q.sql.toList) =
          some ⟨"users", ["first_name", "role"], ["first_name", "role"], c.whereTokens⟩ ∧
        q.bindings.get? "role" = some .null := by
  intro c
  have hname : Identifier.table "" "users" = .ok "users" := rfl
  have haccepted : AssignmentsAccepted "" (start .update "users") respelled :=
    And.intro (fun _ _ => rfl) (And.intro (fun _ h => nomatch h)
      (And.intro (fun _ _ => rfl) trivial))
  have hgiven : respelled.flatMap Verb.given =
      [("first_name", .text "Ada"), ("role", .null), ("first_name", .text "Grace")] := rfl
  obtain ⟨-, hlast, hcompiled⟩ := run_written (Or.inr rfl) hname respelled
  obtain ⟨hcolumns, hvalues⟩ := hlast haccepted
  rw [hgiven] at hcolumns hvalues
  have hnames : c.assignedColumns = ["first_name", "role"] := hcolumns
  have hpayload : c.payload = [("first_name", .text "Grace"), ("role", .null)] := rfl
  have hrole : ("role", .null) ∈ c.payload := by simp [hpayload]
  obtain ⟨q, hq, hread, hbound⟩ := (hcompiled .mySql).2 (List.ne_nil_of_mem hrole)
  exact ⟨hnames, hvalues "first_name", q, hq, by rw [hread, hnames]; rfl, hbound _ hrole⟩

end Chain

end QueryLoom
