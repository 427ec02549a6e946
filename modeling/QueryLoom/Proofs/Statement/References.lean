import QueryLoom.Proofs.Chain.Invariant
import QueryLoom.Proofs.Chain.Tables
import QueryLoom.Proofs.Statement.Clauses

/-!
# References in a statement

A statement is put together from the references of its chain and from texts around them. All of
them are spelled alike: with their tables if a second table has been joined or selected from, and
bare otherwise. A filter, a group or a sort brings no table into the statement, so where one of
them refers to another table and nothing else does, its bare name is read as a column of the table
that the statement is on.
-/

set_option autoImplicit false

namespace QueryLoom

def Reference.qualified (r : Reference) : String := r.table ++ "." ++ r.column

def Filter.references (f : Filter) : List Reference :=
  match f.operand with
  | .keys ks => ks.map fun _ => ⟨f.table, f.column⟩
  | _ => [⟨f.table, f.column⟩]

inductive Piece where
  | text (s : String)
  | name (r : Reference)

namespace Piece

def references : List Piece → List Reference
  | [] => []
  | .text _ :: ps => references ps
  | .name r :: ps => r :: references ps

def spell (spelling : Reference → String) : List Piece → String
  | [] => ""
  | .text s :: ps => s ++ spell spelling ps
  | .name r :: ps => spelling r ++ spell spelling ps

variable (spelling : Reference → String)

@[simp] theorem spell_append (ps qs : List Piece) :
    spell spelling (ps ++ qs) = spell spelling ps ++ spell spelling qs := by
  induction ps with
  | nil => simp [spell]
  | cons p ps ih => cases p <;> simp [spell, ih, String.append_assoc]

theorem spell_intercalate (sep : String) (items : List (List Piece)) :
    spell spelling ([text sep].intercalate items) =
      sep.intercalate (items.map (spell spelling)) := by
  induction items with
  | nil => rfl
  | cons item items ih =>
    cases items with
    | nil => simp
    | cons item' items =>
      rw [List.intercalate_cons_cons, spell_append, spell_append, ih]
      simp only [List.map_cons, String.intercalate_cons_cons, spell, String.append_empty]

@[simp] theorem references_append (ps qs : List Piece) :
    references (ps ++ qs) = references ps ++ references qs := by
  induction ps with
  | nil => rfl
  | cons p ps ih => cases p <;> simp [references, ih]

theorem references_intercalate (sep : String) (items : List (List Piece)) :
    references ([text sep].intercalate items) = items.flatMap references := by
  induction items with
  | nil => rfl
  | cons item items ih =>
    cases items with
    | nil => simp
    | cons item' items =>
      rw [List.intercalate_cons_cons, references_append, references_append, ih]
      simp [references]

end Piece

namespace Chain

open Piece

/-! ## Clauses in pieces -/

def listPieces (c : Chain) (d : Dialect) : List Piece :=
  let columns := c.selectedReferences.map fun r => [name r]
  let columns := if columns.isEmpty then [[text "*"]] else columns
  [text ", "].intercalate
    (columns ++ c.groupConcats.map fun g => [text (d.groupConcat g.expr g.label)])

def comparisonPieces (r : Reference) (op : Operator) (key : String) : List Piece :=
  [name r, text (" " ++ op.text ++ " :" ++ key)]

def filterPieces (f : Filter) : List Piece :=
  let r : Reference := ⟨f.table, f.column⟩
  match f.operand with
  | .key k => comparisonPieces r f.operator k
  | .null => [name r, text (" " ++ f.operator.text ++ " NULL")]
  | .keys [] => [text "(1=0)"]
  | .keys ks =>
    [text "("] ++ [text " OR "].intercalate (ks.map (comparisonPieces r f.operator)) ++ [text ")"]

def morePieces : List Filter → List Piece
  | [] => []
  | f :: fs => [text (" " ++ f.connective.keyword ++ " ")] ++ filterPieces f ++ morePieces fs

def wherePieces (c : Chain) : List Piece :=
  match c.filters with
  | [] => []
  | f :: fs => [text "WHERE "] ++ filterPieces f ++ morePieces fs

def groupByPieces (c : Chain) : List Piece :=
  match c.groupBy with
  | some r => [text "GROUP BY ", name r]
  | none => []

def orderByPieces (c : Chain) : List Piece :=
  match c.sort with
  | some s => [text "ORDER BY ", name s.reference, text (" " ++ s.direction.keyword)]
  | none => []

def pieces (c : Chain) (d : Dialect) (table : String) : Operation → List Piece
  | .select =>
    [text "SELECT "] ++ c.listPieces d ++
      [text (" FROM " ++ table ++ " " ++ c.joinClause ++ " ")] ++ c.wherePieces ++ [text " "] ++
      c.groupByPieces ++ [text " "] ++ c.orderByPieces ++ [text (" " ++ c.limitClause d)]
  | .insert => [text (c.insertStatement d table)]
  | .update =>
    [text ("UPDATE " ++ table ++ " SET " ++
      ", ".intercalate (c.payload.map fun p => assignment p.1) ++ " ")] ++ c.wherePieces
  | .delete => [text ("DELETE FROM " ++ table ++ " ")] ++ c.wherePieces

def references (c : Chain) : List Reference :=
  c.selectedReferences ++ c.filters.flatMap Filter.references ++ c.groupBy.toList ++
    (c.sort.map SortTerm.reference).toList

def spelling (c : Chain) (table : String) (r : Reference) : String :=
  if c.accompanied table then r.qualified else r.column

/-! ## Spelling -/

theorem spell_listPieces (c : Chain) (d : Dialect) :
    spell c.qualify (c.listPieces d) = c.selectList d := by
  have hcolumn : ∀ r, spell c.qualify [name r] = c.qualify r := fun r => by simp [spell]
  have hgroups : (c.groupConcats.map fun g => [text (d.groupConcat g.expr g.label)]).map
      (spell c.qualify) = c.groupConcats.map fun g => d.groupConcat g.expr g.label := by
    rw [List.map_map]
    exact List.map_congr_left fun g _ => by simp [spell]
  have hcolumns : (c.selectedReferences.map fun r => [name r]).map (spell c.qualify) =
      c.selectedReferences.map c.qualify := by
    rw [List.map_map]
    exact List.map_congr_left fun r _ => hcolumn r
  unfold listPieces selectList
  rw [spell_intercalate, List.map_append, hgroups]
  cases hrefs : c.selectedReferences with
  | nil => simp [spell]
  | cons r rs =>
    rw [hrefs] at hcolumns
    simp only [List.map_cons, List.isEmpty_cons, Bool.false_eq_true, if_false] at hcolumns ⊢
    rw [hcolumns]

theorem spell_comparisonPieces (c : Chain) (r : Reference) (op : Operator) (key : String) :
    spell c.qualify (comparisonPieces r op key) = comparison (c.qualify r) op key := by
  simp [comparisonPieces, comparison, spell, String.append_assoc]

theorem spell_filterPieces (c : Chain) (f : Filter) :
    spell c.qualify (filterPieces f) = c.filterTerm f := by
  unfold filterPieces filterTerm
  cases f.operand with
  | key k => exact spell_comparisonPieces c _ f.operator k
  | null => simp [spell, String.append_assoc]
  | keys ks =>
    cases ks with
    | nil => simp [spell]
    | cons k ks =>
      have hterms : ((k :: ks).map (comparisonPieces ⟨f.table, f.column⟩ f.operator)).map
          (spell c.qualify) =
          (k :: ks).map (comparison (c.qualify ⟨f.table, f.column⟩) f.operator) := by
        rw [List.map_map]
        exact List.map_congr_left fun k _ => spell_comparisonPieces c _ f.operator k
      simp only [spell_append, spell_intercalate, hterms]
      simp [spell]

theorem spell_morePieces (c : Chain) (fs : List Filter) :
    spell c.qualify (morePieces fs) = c.moreTerms fs := by
  induction fs with
  | nil => rfl
  | cons f fs ih =>
    simp [morePieces, moreTerms, spell, spell_filterPieces, ih, String.append_assoc]

theorem spell_wherePieces (c : Chain) : spell c.qualify c.wherePieces = c.whereClause := by
  unfold wherePieces whereClause
  cases c.filters with
  | nil => rfl
  | cons f fs =>
    simp [spell, spell_filterPieces, spell_morePieces, String.append_assoc]

theorem spell_groupByPieces (c : Chain) : spell c.qualify c.groupByPieces = c.groupByClause := by
  unfold groupByPieces groupByClause
  cases c.groupBy <;> simp [spell]

theorem spell_orderByPieces (c : Chain) : spell c.qualify c.orderByPieces = c.orderByClause := by
  unfold orderByPieces orderByClause
  cases c.sort <;> simp [spell, String.append_assoc]

/-- Spelled as the chain qualifies its references, the pieces are the statement. -/
theorem spell_pieces {c : Chain} {d : Dialect} {table s : String} {op : Operation}
    (h : c.statement d table op = .ok s) : spell c.qualify (c.pieces d table op) = s := by
  obtain ⟨-, rfl⟩ := statement_eq_ok_iff.mp h
  cases op with
  | select =>
    rw [statementText, selectStatement_eq]
    simp [pieces, selectHead, selectTail, spell, spell_listPieces, spell_wherePieces,
      spell_groupByPieces, spell_orderByPieces, String.append_assoc]
  | insert => simp [pieces, spell, statementText]
  | update =>
    simp [pieces, statementText, updateStatement, spell, spell_wherePieces, String.append_assoc]
  | delete =>
    simp [pieces, statementText, deleteStatement, spell, spell_wherePieces, String.append_assoc]

/-! ## References of the clauses -/

theorem references_listPieces (c : Chain) (d : Dialect) :
    Piece.references (c.listPieces d) = c.selectedReferences := by
  have hgroups : (c.groupConcats.map fun g => [text (d.groupConcat g.expr g.label)]).flatMap
      Piece.references = [] := by simp [Piece.references]
  unfold listPieces
  rw [references_intercalate, List.flatMap_append, hgroups, List.append_nil]
  cases c.selectedReferences with
  | nil => simp [Piece.references]
  | cons r rs => simp [Piece.references, List.flatMap_map]

theorem references_filterPieces (f : Filter) :
    Piece.references (filterPieces f) = f.references := by
  unfold filterPieces Filter.references
  cases f.operand with
  | key k => rfl
  | null => rfl
  | keys ks =>
    cases ks with
    | nil => rfl
    | cons k ks =>
      simp only [Piece.references_append, references_intercalate, List.flatMap_map]
      simp [Piece.references, comparisonPieces, List.map_eq_flatMap]

theorem references_morePieces (fs : List Filter) :
    Piece.references (morePieces fs) = fs.flatMap Filter.references := by
  induction fs with
  | nil => rfl
  | cons f fs ih => simp [morePieces, Piece.references, references_filterPieces, ih]

theorem references_wherePieces (c : Chain) :
    Piece.references c.wherePieces = c.filters.flatMap Filter.references := by
  unfold wherePieces
  cases c.filters with
  | nil => rfl
  | cons f fs => simp [Piece.references, references_filterPieces, references_morePieces]

theorem references_groupByPieces (c : Chain) :
    Piece.references c.groupByPieces = c.groupBy.toList := by
  unfold groupByPieces
  cases c.groupBy <;> rfl

theorem references_orderByPieces (c : Chain) :
    Piece.references c.orderByPieces = (c.sort.map SortTerm.reference).toList := by
  unfold orderByPieces
  cases c.sort <;> rfl

theorem references_selectPieces (c : Chain) (d : Dialect) (table : String) :
    Piece.references (c.pieces d table .select) = c.references := by
  simp [pieces, references, Piece.references, references_listPieces, references_wherePieces,
    references_groupByPieces, references_orderByPieces]

theorem Lone.references_eq {c : Chain} {table : String} (h : c.Lone table) :
    c.references = c.filters.flatMap Filter.references := by
  simp [references, h.selectedReferences_eq, h.groupBy, h.sort]

theorem references_pieces {c : Chain} {table : String} {op : Operation} (d : Dialect)
    (hinsert : op ≠ .insert) (hlone : op ≠ .select → c.Lone table) :
    Piece.references (c.pieces d table op) = c.references := by
  cases op with
  | select => exact references_selectPieces c d table
  | insert => exact absurd rfl hinsert
  | update | delete =>
    rw [(hlone (by decide)).references_eq]
    simp [pieces, Piece.references, references_wherePieces]

/-! ## References to other tables -/

theorem qualify_eq_spelling {c : Chain} {table : String} (h : c.Registered table) :
    c.qualify = c.spelling table := by
  funext r
  rw [qualify, spelling, h.isMultiTable_eq]
  rfl

theorem spelling_eq_qualified_iff (c : Chain) (table : String) (r : Reference) :
    c.spelling table r = r.qualified ↔ c.accompanied table = true := by
  have hne : r.column ≠ r.qualified := by
    intro h
    have hlength := congrArg (fun s => s.toList.length) h
    simp [Reference.qualified] at hlength
    omega
  unfold spelling
  split
  · simpa
  · rename_i hnot
    exact ⟨fun h => absurd h hne, fun h => absurd h hnot⟩

/-- In a statement that is no INSERT, every recorded reference stands once, in the order of the
clauses, and they are all spelled by one rule. No name is left to mean a column of another table
than was recorded, if and only if a second table is joined or selected from or all references are
to the table of the statement. Selected columns always keep their table, and a statement that
writes never has a second one. -/
theorem run_spelling {tablePrefix table : String} {operation : Operation} {verbs : List Verb}
    {d : Dialect} {q : Compiled} (hinsert : operation ≠ .insert)
    (hverbs : ∀ v ∈ verbs, operation.allows v = true)
    (hq : ((start operation table).run tablePrefix verbs).compile d = .ok q) :
    let c := (start operation table).run tablePrefix verbs
    q.sql = String.ofList
        (Text.collapse (spell (c.spelling table) (c.pieces d table operation)).toList) ∧
      Piece.references (c.pieces d table operation) = c.references ∧
      ((∀ r ∈ c.references, c.spelling table r = r.qualified ∨ r.table = table) ↔
        c.accompanied table = true ∨ ∀ r ∈ c.references, r.table = table) ∧
      (∀ r ∈ c.selectedReferences, c.spelling table r = r.qualified ∨ r.table = table) ∧
      (operation ≠ .select → c.accompanied table = false) := by
  intro c
  have hregistered : c.Registered table := run_registered tablePrefix table operation verbs
  have hlone : operation ≠ .select → c.Lone table := fun hselect =>
    run_lone tablePrefix (start_lone operation table) hselect hverbs
  obtain ⟨htable, hoperation⟩ := run_start_head tablePrefix operation table verbs
  refine ⟨?_, references_pieces d hinsert hlone, ?_, fun r hr => ?_,
    fun h => (hlone h).accompanied_eq⟩
  · rw [compile_eq htable hoperation] at hq
    cases hs : c.statement d table operation with
    | error e =>
      rw [hs] at hq
      cases hq
    | ok s =>
      rw [hs] at hq
      cases hq
      rw [← qualify_eq_spelling hregistered, spell_pieces hs]
  · simp only [spelling_eq_qualified_iff]
    by_cases h : c.accompanied table = true
    · simp [h]
    · simp [h]
  · rw [spelling_eq_qualified_iff]
    by_cases hother : r.table = table
    · exact Or.inr hother
    · exact Or.inl (accompanied_iff.mpr (Or.inr ⟨r, hr, hother⟩))

def orderVerbs : List Verb := [.filter .and "orders.status" "=" (.text "x")]

/-- A deletion that is filtered on another table deletes by a column of its own. -/
theorem deletion_reaimed :
    ∃ q, ((start .delete "users").run "" orderVerbs).compile .mySql = .ok q ∧
      q.sql = "DELETE FROM users WHERE status = :ordersandstatus" ∧
      ((start .delete "users").run "" orderVerbs).references = [⟨"orders", "status"⟩] ∧
      ¬ ∀ r ∈ ((start .delete "users").run "" orderVerbs).references,
        ((start .delete "users").run "" orderVerbs).spelling "users" r = r.qualified ∨
          r.table = "users" := by
  have hq : ((start .delete "users").run "" orderVerbs).compile .mySql =
      .ok ⟨"DELETE FROM users WHERE status = :ordersandstatus",
        ⟨[("ordersandstatus", .text "x")]⟩, .delete, ["users"], true⟩ := rfl
  have hreferences : ((start .delete "users").run "" orderVerbs).references =
      [⟨"orders", "status"⟩] := rfl
  have hinsert : Operation.delete ≠ .insert := by decide
  have hverbs : ∀ v ∈ orderVerbs, Operation.delete.allows v = true := by decide
  obtain ⟨-, -, hreaimed, -, hlone⟩ := run_spelling hinsert hverbs hq
  refine ⟨_, hq, rfl, hreferences, fun hall => ?_⟩
  rcases hreaimed.mp hall with h | h
  · rw [hlone (by decide)] at h
    cases h
  · rw [hreferences] at h
    exact absurd (h ⟨"orders", "status"⟩ (by simp)) (by decide)

end Chain

end QueryLoom
