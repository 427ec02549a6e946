import QueryLoom.Chain.Compile
import QueryLoom.Proofs.Chain.Invariant

/-!
# Clauses as texts put together

What a statement consists of besides its raw fragments is words of safe characters. A property of
texts that such words have and that passes to two texts in a row is therefore a property of every
clause, as soon as the fragments have it in the places in which they stand.
-/

set_option autoImplicit false

namespace QueryLoom

def isSafe (c : Char) : Bool :=
  c.isAlphanum || ['_', ' ', ',', '.', '(', ')', '=', '<', '>', '!'].contains c

def IsSafe (s : String) : Prop := ∀ c ∈ s.toList, isSafe c = true

instance (s : String) : Decidable (IsSafe s) :=
  inferInstanceAs (Decidable (∀ c ∈ s.toList, isSafe c = true))

theorem IsIdentifier.isSafe {s : String} (h : IsIdentifier s) : IsSafe s := by
  intro c hc
  have hpart := (Identifier.isPart_iff c).mp (h.isPart hc)
  rcases hpart with rfl | hl | hd
  · decide
  · simp [QueryLoom.isSafe, Char.isAlphanum, Text.isAlpha_eq, hl]
  · simp [QueryLoom.isSafe, Char.isAlphanum, hd]

theorem BindKey.IsKey.isSafe {k : String} (h : BindKey.IsKey k) : IsSafe k := by
  intro c hc
  simp [QueryLoom.isSafe, Char.isAlphanum, h.2 c hc]

theorem Text.natural_isSafe (n : Nat) : IsSafe (Text.natural n) := by
  intro c hc
  rw [Text.natural, String.toList_ofList] at hc
  have hd : c.isDigit = true := Nat.isDigit_of_mem_toDigits (by decide) (by decide) hc
  simp [isSafe, Char.isAlphanum, hd]

theorem Operator.text_isSafe (op : Operator) : IsSafe op.text := by cases op <;> decide

theorem Connective.keyword_isSafe (c : Connective) : IsSafe c.keyword := by cases c <;> decide

theorem JoinKind.keyword_isSafe (k : JoinKind) : IsSafe k.keyword := by cases k <;> decide

theorem Direction.keyword_isSafe (d : Direction) : IsSafe d.keyword := by cases d <;> decide

/-- A property of texts that is kept when texts are put together. A star stands only where all
columns are meant. -/
structure Composable (P : String → Prop) : Prop where
  safe : ∀ s, IsSafe s → P s
  append : ∀ s s', P s → P s' → P (s ++ s')
  selectStar : P "SELECT *"
  returningStar : P " RETURNING *"

namespace Composable

variable {P : String → Prop}

theorem empty (hP : Composable P) : P "" := hP.safe "" (by decide)

theorem intercalate (hP : Composable P) {sep : String} (hsep : IsSafe sep) {ss : List String}
    (h : ∀ s ∈ ss, P s) : P (sep.intercalate ss) :=
  Text.of_intercalate hP.empty hP.append (hP.safe sep hsep) h

end Composable

namespace Chain

variable {P : String → Prop} {c : Chain}

theorem qualify_isSafe {r : Reference} (h : r.IsNamed) : IsSafe (c.qualify r) := by
  unfold qualify
  split
  · intro d hd
    simp only [String.toList_append, List.mem_append] at hd
    rcases hd with (hd | hd) | hd
    · exact h.1.isSafe d hd
    · obtain rfl : d = '.' := by simpa using hd
      decide
    · exact h.2.isSafe d hd
  · exact h.2.isSafe

theorem selectedReferences_isNamed (h : c.WellFormed) : ∀ r ∈ c.selectedReferences, r.IsNamed := by
  intro r hr
  simp only [selectedReferences, List.mem_flatMap, List.mem_map] at hr
  obtain ⟨e, he, col, hcol, rfl⟩ := hr
  exact ⟨(h.columns e he).1, (h.columns e he).2 col hcol⟩

def GroupsHave (c : Chain) (d : Dialect) (P : String → Prop) : Prop :=
  ∀ g ∈ c.groupConcats, P (d.groupConcat g.expr g.label)

def ConditionsHave (c : Chain) (P : String → Prop) : Prop :=
  ∀ j ∈ c.joins, P (" ON " ++ j.condition)

theorem selectList_has (hP : Composable P) (h : c.WellFormed) {d : Dialect}
    (hg : c.GroupsHave d P) : P ("SELECT " ++ c.selectList d) := by
  have hgroups : ∀ s ∈ c.groupConcats.map (fun g => d.groupConcat g.expr g.label), P s := by
    intro s hs
    obtain ⟨g, hmem, rfl⟩ := List.mem_map.mp hs
    exact hg g hmem
  have hcolumns : ∀ s ∈ c.selectedReferences.map c.qualify, P s := by
    intro s hs
    obtain ⟨r, hr, rfl⟩ := List.mem_map.mp hs
    exact hP.safe _ (qualify_isSafe (selectedReferences_isNamed h r hr))
  simp only [selectList]
  by_cases hnone : (c.selectedReferences.map c.qualify).isEmpty = true
  · rw [if_pos hnone]
    cases hrest : c.groupConcats.map fun g => d.groupConcat g.expr g.label with
    | nil => simpa using hP.selectStar
    | cons s ss =>
      rw [hrest] at hgroups
      have hcomma : IsSafe ", " := by decide
      have hmore := hP.append _ _ (hP.safe ", " hcomma) (hP.intercalate hcomma hgroups)
      have hsplit : "SELECT " ++ ", ".intercalate (["*"] ++ s :: ss) =
          "SELECT *" ++ (", " ++ ", ".intercalate (s :: ss)) := by
        have hstar : "SELECT " ++ "*" = "SELECT *" := by decide
        rw [List.singleton_append, String.intercalate_cons_cons, String.append_assoc,
          ← String.append_assoc, hstar]
      rw [hsplit]
      exact hP.append _ _ hP.selectStar hmore
  · rw [if_neg hnone]
    refine hP.append _ _ (hP.safe _ (by decide)) (hP.intercalate (by decide) fun s hs => ?_)
    exact (List.mem_append.mp hs).elim (hcolumns s) (hgroups s)

theorem mem_orderedJoins {j : Join} : j ∈ c.orderedJoins ↔ j ∈ c.joins := by
  have hkind : j.kind ∈ JoinKind.order := by cases j.kind <;> decide
  simp only [orderedJoins, joinsOf, List.mem_flatMap, List.mem_filter, beq_iff_eq]
  exact ⟨fun ⟨_, _, hj, _⟩ => hj, fun hj => ⟨j.kind, hkind, hj, rfl⟩⟩

theorem joinClause_has (hP : Composable P) (h : c.WellFormed) (hon : c.ConditionsHave P) :
    P c.joinClause := by
  refine hP.intercalate (by decide) fun s hs => ?_
  obtain ⟨j, hj, rfl⟩ := List.mem_map.mp hs
  rw [joinTerm, String.append_assoc]
  refine hP.append _ _ (hP.append _ _ (hP.append _ _ ?_ ?_) ?_) (hon j (mem_orderedJoins.mp hj))
  · exact hP.safe _ j.kind.keyword_isSafe
  · exact hP.safe _ (by decide)
  · exact hP.safe _ (h.joins j (mem_orderedJoins.mp hj)).1.isSafe

theorem groupByClause_has (hP : Composable P) (h : c.WellFormed) : P c.groupByClause := by
  unfold groupByClause
  cases hr : c.groupBy with
  | none => exact hP.empty
  | some r =>
    exact hP.append _ _ (hP.safe _ (by decide)) (hP.safe _ (qualify_isSafe (h.groupBy r hr)))

theorem orderByClause_has (hP : Composable P) (h : c.WellFormed) : P c.orderByClause := by
  unfold orderByClause
  cases hs : c.sort with
  | none => exact hP.empty
  | some s =>
    refine hP.append _ _ (hP.append _ _ (hP.append _ _ ?_ ?_) ?_) ?_
    · exact hP.safe _ (by decide)
    · exact hP.safe _ (qualify_isSafe (h.sort s hs))
    · exact hP.safe _ (by decide)
    · exact hP.safe _ s.direction.keyword_isSafe

theorem limitClause_has (hP : Composable P) (d : Dialect) : P (c.limitClause d) := by
  have hword : ∀ s n, IsSafe s → P (s ++ Text.natural n) := fun s n hs =>
    hP.append _ _ (hP.safe _ hs) (hP.safe _ (Text.natural_isSafe n))
  unfold limitClause
  cases c.limit with
  | none => exact hP.empty
  | some l =>
    cases hcount : l.count with
    | none => simpa [Dialect.limit, hcount] using hword "LIMIT " l.offset (by decide)
    | some n =>
      have hpair : ∀ m n sep, IsSafe sep →
          P ("LIMIT " ++ Text.natural m ++ sep ++ Text.natural n) := by
        intro m n sep hsep
        rw [String.append_assoc]
        exact hP.append _ _ (hword _ m (by decide)) (hword sep n hsep)
      cases d with
      | mySql => simpa only [Dialect.limit, hcount] using hpair l.offset n ", " (by decide)
      | postgres => simpa only [Dialect.limit, hcount] using hpair n l.offset " OFFSET " (by decide)

theorem compile_eq {table : String} {op : Operation} (ht : c.table = some table)
    (hop : c.operation = some op) (d : Dialect) :
    c.compile d = (c.statement d table op).map fun s =>
      ⟨String.ofList (Text.collapse s.toList), c.compiledBindings op, op,
        table :: c.orderedJoins.map Join.table, !c.filters.isEmpty⟩ := by
  unfold compile requireTable requireOperation
  rw [ht, hop]
  simp only [Bind.bind, Except.bind]
  cases c.statement d table op <;> rfl

def statementText (c : Chain) (d : Dialect) (table : String) : Operation → String
  | .select => c.selectStatement d table
  | .insert => c.insertStatement d table
  | .update => c.updateStatement table
  | .delete => c.deleteStatement table

/-- A statement is refused only for a write that has nothing to write. -/
theorem statement_eq_ok_iff {d : Dialect} {table s : String} {op : Operation} :
    c.statement d table op = .ok s ↔
      (op = .insert ∨ op = .update → c.payload ≠ []) ∧ s = c.statementText d table op := by
  have hwrite : ∀ {e : Error} {t : String},
      (if c.payload.isEmpty then .error e else .ok t : Except Error String) = .ok s ↔
        c.payload ≠ [] ∧ s = t := by
    intro e t
    cases c.payload with
    | nil => simp
    | cons _ _ => simp [eq_comm]
  cases op with
  | select => simp [statement, statementText, eq_comm]
  | insert => simpa [statement, statementText] using hwrite
  | update => simpa [statement, statementText] using hwrite
  | delete => simp [statement, statementText, eq_comm]

theorem statement_ok (c : Chain) (d : Dialect) (table : String) {op : Operation}
    (h : op = .insert ∨ op = .update → c.payload ≠ []) : ∃ s, c.statement d table op = .ok s :=
  ⟨_, statement_eq_ok_iff.mpr ⟨h, rfl⟩⟩

def selectHead (c : Chain) (d : Dialect) (table : String) : String :=
  "SELECT " ++ c.selectList d ++ " FROM " ++ table ++ " " ++ c.joinClause ++ " "

def selectTail (c : Chain) (d : Dialect) : String :=
  " " ++ c.groupByClause ++ " " ++ c.orderByClause ++ " " ++ c.limitClause d

theorem selectStatement_eq (d : Dialect) (table : String) :
    c.selectStatement d table = c.selectHead d table ++ c.whereClause ++ c.selectTail d := by
  simp only [selectStatement, selectHead, selectTail, String.intercalate_cons_cons,
    String.intercalate_singleton, String.append_assoc]

theorem selectHead_has (hP : Composable P) (h : c.WellFormed) {d : Dialect}
    (hg : c.GroupsHave d P) (hon : c.ConditionsHave P) {table : String} (ht : IsIdentifier table) :
    P (c.selectHead d table) := by
  refine hP.append _ _ (hP.append _ _ (hP.append _ _ (hP.append _ _ (hP.append _ _ ?_ ?_) ?_) ?_)
    ?_) ?_
  · exact selectList_has hP h hg
  · exact hP.safe _ (by decide)
  · exact hP.safe _ ht.isSafe
  · exact hP.safe _ (by decide)
  · exact joinClause_has hP h hon
  · exact hP.safe _ (by decide)

theorem selectTail_has (hP : Composable P) (h : c.WellFormed) (d : Dialect) :
    P (c.selectTail d) := by
  refine hP.append _ _ (hP.append _ _ (hP.append _ _ (hP.append _ _ (hP.append _ _ ?_ ?_) ?_) ?_)
    ?_) ?_
  · exact hP.safe _ (by decide)
  · exact groupByClause_has hP h
  · exact hP.safe _ (by decide)
  · exact orderByClause_has hP h
  · exact hP.safe _ (by decide)
  · exact limitClause_has hP d

def insertHead (c : Chain) (table : String) : String :=
  "INSERT INTO " ++ table ++ " (" ++ ", ".intercalate (c.payload.map Prod.fst) ++ ") VALUES ("

def insertTail (d : Dialect) : String :=
  ")" ++ match d with
    | .postgres => " RETURNING *"
    | .mySql => ""

theorem insertStatement_eq (d : Dialect) (table : String) :
    c.insertStatement d table =
      c.insertHead table ++ ", ".intercalate ((c.payload.map Prod.fst).map placeholder) ++
        insertTail d := by
  unfold insertStatement insertHead insertTail
  cases d <;> simp only [String.append_assoc]

theorem insertHead_has (hP : Composable P) (h : c.WellFormed) {table : String}
    (ht : IsIdentifier table) : P (c.insertHead table) := by
  refine hP.append _ _ (hP.append _ _ (hP.append _ _ (hP.append _ _ ?_ ?_) ?_) ?_) ?_
  · exact hP.safe _ (by decide)
  · exact hP.safe _ ht.isSafe
  · exact hP.safe _ (by decide)
  · refine hP.intercalate (by decide) fun s hs => ?_
    obtain ⟨e, he, rfl⟩ := List.mem_map.mp hs
    exact hP.safe _ (h.payload e he).isSafe
  · exact hP.safe _ (by decide)

theorem insertTail_has (hP : Composable P) (d : Dialect) : P (insertTail d) := by
  unfold insertTail
  refine hP.append _ _ (hP.safe ")" (by decide)) ?_
  cases d with
  | postgres => exact hP.returningStar
  | mySql => exact hP.empty

end Chain

end QueryLoom
