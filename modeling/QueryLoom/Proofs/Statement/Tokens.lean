import QueryLoom.Proofs.Statement.Clauses
import QueryLoom.Proofs.Statement.Where

/-!
# Tokens of a SELECT

A SELECT without joins and aggregates holds no raw text. What it shows of its chain are names,
operators, keys and numbers, and its tokens are these with keywords and marks between them. Of a
reference the statement shows the column, and the table only where a second one takes part; of a
filter on an empty list it shows that it is there.
-/

set_option autoImplicit false

namespace QueryLoom

open Condition

theorem IsIdentifier.isWord {s : String} (h : IsIdentifier s) : IsWord s := by
  obtain ⟨a, as, hs, ha, has⟩ := h.isName
  exact ⟨a, as, hs, ha, fun b hb => by simp [isWordPart, has b hb]⟩

structure Shown where
  table : Option String
  selected : List String
  /-- Reference, operator and operand, and of a filter on an empty list none of them. -/
  filters : List (Option (String × Operator × Operand))
  connectives : List Connective
  groupBy : Option String
  sort : Option (String × Direction)
  limit : Option Limit
  deriving DecidableEq, Repr

namespace Chain

def shownFilter (c : Chain) (f : Filter) : Option (String × Operator × Operand) :=
  if f.operand = .keys [] then none
  else some (c.qualify ⟨f.table, f.column⟩, f.operator, f.operand)

def shown (c : Chain) : Shown where
  table := c.table
  selected := c.selectedReferences.map c.qualify
  filters := c.filters.map c.shownFilter
  connectives := c.filters.tail.map Filter.connective
  groupBy := c.groupBy.map c.qualify
  sort := c.sort.map fun s => (c.qualify s.reference, s.direction)
  limit := c.limit

/-! ## Tokens of the clauses -/

def listTokens : List String → List Token
  | [] => [.stray '*']
  | [w] => [.word w]
  | w :: ws => .word w :: .stray ',' :: listTokens ws

def commaTokens {α : Type} (tokens : α → List Token) : List α → List Token
  | [] => []
  | [a] => tokens a
  | a :: as => tokens a ++ .stray ',' :: commaTokens tokens as

theorem listTokens_eq {ws : List String} (hne : ws ≠ []) :
    listTokens ws = commaTokens (fun w => [.word w]) ws := by
  induction ws with
  | nil => exact absurd rfl hne
  | cons w ws ih =>
    cases ws with
    | nil => rfl
    | cons w' ws => simp [listTokens, commaTokens, ih]

def whereTokens (c : Chain) : List Token :=
  match c.filters with
  | [] => []
  | fs => .word "WHERE" :: c.conditionTokens fs

def clauseTokens {α : Type} (keyword : String) (tokens : α → List Token) : Option α → List Token
  | some a => .word keyword :: tokens a
  | none => []

def groupByTokens : Option String → List Token :=
  clauseTokens "GROUP" fun r => [.word "BY", .word r]

def orderByTokens : Option (String × Direction) → List Token :=
  clauseTokens "ORDER" fun s => [.word "BY", .word s.1, .word s.2.keyword]

def boundTokens (d : Dialect) : Limit → List Token
  | ⟨offset, none⟩ => [.number offset]
  | ⟨offset, some count⟩ =>
    match d with
    | .mySql => [.number offset, .stray ',', .number count]
    | .postgres => [.number count, .word "OFFSET", .number offset]

def limitTokens (d : Dialect) : Option Limit → List Token := clauseTokens "LIMIT" (boundTokens d)

def endTokens (c : Chain) (d : Dialect) : List Token :=
  groupByTokens c.shown.groupBy ++ (orderByTokens c.shown.sort ++ limitTokens d c.limit)

def selectTokens (c : Chain) (d : Dialect) (table : String) : List Token :=
  .word "SELECT" :: listTokens c.shown.selected ++
    .word "FROM" :: .word table :: (c.whereTokens ++ c.endTokens d)

/-! ## Reading the statement -/

/-- A word by itself. -/
theorem lex_word_alone {s : String} (hs : IsWord s) : lex s.toList = [.word s] := by
  simpa using lex_word hs (Text.stops_nil isWordPart)

/-- Items that are each read up to where their text ends are read as a list. -/
theorem lex_commas {α : Type} (text : α → String) (tokens : α → List Token) {as : List α}
    (hitem : ∀ a ∈ as, ∀ rest, Text.Stops isWordPart rest →
      lex ((text a).toList ++ rest) = tokens a ++ lex rest)
    (hne : as ≠ []) {rest : List Char} (hr : Text.Stops isWordPart rest) :
    lex ((", ".intercalate (as.map text)).toList ++ rest) = commaTokens tokens as ++ lex rest := by
  induction as with
  | nil => exact absurd rfl hne
  | cons a as ih =>
    cases as with
    | nil => simpa [commaTokens] using hitem a (by simp) rest hr
    | cons a' as =>
      have htext : (", ".intercalate ((a :: a' :: as).map text)).toList ++ rest =
          (text a).toList ++ ',' :: ' ' ::
            ((", ".intercalate ((a' :: as).map text)).toList ++ rest) := by
        simp [String.intercalate_cons_cons]
      rw [htext, hitem a (by simp) _ (Text.stops_cons (by decide) _), lex_comma, lex_space,
        ih (fun b hb => hitem b (List.mem_cons_of_mem a hb)) (by simp)]
      simp [commaTokens]

theorem lex_list {ws : List String} (hws : ∀ w ∈ ws, IsWord w) (hne : ws ≠ []) :
    lex (", ".intercalate ws).toList = listTokens ws := by
  have hitem : ∀ w ∈ ws, ∀ rest, Text.Stops isWordPart rest →
      lex (w.toList ++ rest) = [.word w] ++ lex rest := fun w hw _ hr => lex_word (hws w hw) hr
  have hlist := lex_commas (fun w => w) (fun w => [.word w]) hitem hne (Text.stops_nil isWordPart)
  simpa [listTokens_eq hne] using hlist

theorem lex_selectList {c : Chain} (hc : c.WellFormed) (hgroups : c.groupConcats = [])
    (d : Dialect) : lex (c.selectList d).toList = listTokens c.shown.selected := by
  have hwords : ∀ w ∈ c.shown.selected, IsWord w := by
    intro w hw
    obtain ⟨r, hr, rfl⟩ := List.mem_map.mp hw
    exact c.qualify_isWord (selectedReferences_isNamed hc r hr)
  have hlist : c.selectList d =
      ", ".intercalate (if c.shown.selected = [] then ["*"] else c.shown.selected) := by
    simp [selectList, hgroups, shown]
  rw [hlist]
  split
  · rename_i hnone
    rw [hnone]
    simp [listTokens]
  · rename_i hsome
    exact lex_list hwords hsome

theorem lex_whereTokens {c : Chain} (hc : c.WellFormed) :
    lex c.whereClause.toList = c.whereTokens := by
  unfold whereTokens
  split
  · rename_i hnone
    simp [whereClause, hnone]
  · rename_i hsome
    exact lex_whereClause hc hsome

theorem lex_groupByClause {c : Chain} (hc : c.WellFormed) :
    lex c.groupByClause.toList = groupByTokens c.shown.groupBy := by
  have hgroup : IsWord "GROUP" := isWord_literal 'G' ['R', 'O', 'U', 'P'] rfl rfl rfl
  have hby : IsWord "BY" := isWord_literal 'B' ['Y'] rfl rfl rfl
  unfold groupByClause shown
  cases hr : c.groupBy with
  | none => exact lex_nil
  | some r =>
    have htext : ("GROUP BY " ++ c.qualify r).toList =
        "GROUP".toList ++ ' ' :: ("BY".toList ++ ' ' :: (c.qualify r).toList) := by simp
    rw [htext, lex_keyword hgroup, lex_keyword hby,
      lex_word_alone (c.qualify_isWord (hc.groupBy r hr))]
    rfl

theorem lex_orderByClause {c : Chain} (hc : c.WellFormed) :
    lex c.orderByClause.toList = orderByTokens c.shown.sort := by
  have horder : IsWord "ORDER" := isWord_literal 'O' ['R', 'D', 'E', 'R'] rfl rfl rfl
  have hby : IsWord "BY" := isWord_literal 'B' ['Y'] rfl rfl rfl
  unfold orderByClause shown
  cases hs : c.sort with
  | none => exact lex_nil
  | some s =>
    have hdirection : IsWord s.direction.keyword := by
      cases s.direction with
      | asc => exact isWord_literal 'A' ['S', 'C'] rfl rfl rfl
      | desc => exact isWord_literal 'D' ['E', 'S', 'C'] rfl rfl rfl
    have htext : ("ORDER BY " ++ c.qualify s.reference ++ " " ++ s.direction.keyword).toList =
        "ORDER".toList ++ ' ' :: ("BY".toList ++ ' ' ::
          ((c.qualify s.reference).toList ++ ' ' :: s.direction.keyword.toList)) := by simp
    rw [htext, lex_keyword horder, lex_keyword hby,
      lex_keyword (c.qualify_isWord (hc.sort s hs)), lex_word_alone hdirection]
    rfl

theorem lex_natural (n : Nat) {rest : List Char} (hr : Text.Stops Char.isDigit rest) :
    lex ((Text.natural n).toList ++ rest) = .number n :: lex rest := by
  have hdigits : ∀ a ∈ Nat.toDigits 10 n, a.isDigit = true := fun a ha =>
    Nat.isDigit_of_mem_toDigits (by decide) (by decide) ha
  obtain ⟨a, as, has⟩ := List.exists_cons_of_ne_nil (Nat.toDigits_ne_nil (b := 10) (n := n))
  rw [Text.natural, String.toList_ofList]
  rw [has] at hdigits ⊢
  rw [lex_number (hdigits a (by simp)) (fun b hb => hdigits b (List.mem_cons_of_mem _ hb)) hr,
    ← has, Nat.ofDigitChars_ten_toDigits]

theorem lex_natural_alone (n : Nat) : lex (Text.natural n).toList = [.number n] := by
  simpa using lex_natural n (Text.stops_nil Char.isDigit)

theorem lex_limitClause (c : Chain) (d : Dialect) :
    lex (c.limitClause d).toList = limitTokens d c.limit := by
  have hlimit : IsWord "LIMIT" := isWord_literal 'L' ['I', 'M', 'I', 'T'] rfl rfl rfl
  have hoffset : IsWord "OFFSET" := isWord_literal 'O' ['F', 'F', 'S', 'E', 'T'] rfl rfl rfl
  unfold limitClause
  rcases c.limit with _ | ⟨offset, _ | count⟩
  · exact lex_nil
  · have htext : (d.limit offset none).toList =
        "LIMIT".toList ++ ' ' :: (Text.natural offset).toList := by simp [Dialect.limit]
    simp only [htext]
    rw [lex_keyword hlimit, lex_natural_alone]
    rfl
  · cases d with
    | mySql =>
      have htext : (Dialect.mySql.limit offset (some count)).toList =
          "LIMIT".toList ++ ' ' :: ((Text.natural offset).toList ++
            ',' :: ' ' :: (Text.natural count).toList) := by simp [Dialect.limit]
      simp only [htext]
      rw [lex_keyword hlimit, lex_natural _ (Text.stops_cons (by decide) _), lex_comma, lex_space,
        lex_natural_alone]
      rfl
    | postgres =>
      have htext : (Dialect.postgres.limit offset (some count)).toList =
          "LIMIT".toList ++ ' ' :: ((Text.natural count).toList ++
            ' ' :: ("OFFSET".toList ++ ' ' :: (Text.natural offset).toList)) := by
        simp [Dialect.limit]
      simp only [htext]
      rw [lex_keyword hlimit, lex_natural _ (Text.stops_cons (by decide) _), lex_space,
        lex_keyword hoffset, lex_natural_alone]
      rfl

theorem lex_selectStatement {c : Chain} (hc : c.WellFormed) (hjoins : c.joins = [])
    (hgroups : c.groupConcats = []) (d : Dialect) {table : String} (ht : IsIdentifier table) :
    lex (c.selectStatement d table).toList = c.selectTokens d table := by
  have hselect : IsWord "SELECT" := isWord_literal 'S' ['E', 'L', 'E', 'C', 'T'] rfl rfl rfl
  have hfrom : IsWord "FROM" := isWord_literal 'F' ['R', 'O', 'M'] rfl rfl rfl
  have hhead : lex ("SELECT " ++ c.selectList d ++ " FROM " ++ table).toList =
      .word "SELECT" :: listTokens c.shown.selected ++ [.word "FROM", .word table] := by
    have htext : ("SELECT " ++ c.selectList d ++ " FROM " ++ table).toList =
        "SELECT".toList ++ ' ' :: ((c.selectList d).toList ++
          ' ' :: ("FROM".toList ++ ' ' :: table.toList)) := by simp
    rw [htext, lex_keyword hselect, lex_append_space, lex_selectList hc hgroups,
      lex_keyword hfrom, lex_word_alone ht.isWord]
    rfl
  have hjoin : c.joinClause = "" := by
    have hnone : c.joinsOf = fun _ => [] := funext fun kind => by simp [joinsOf, hjoins]
    rw [joinClause, orderedJoins, hnone]
    rfl
  rw [selectStatement, lex_intercalate]
  simp only [List.flatMap_cons, List.flatMap_nil, hhead, hjoin, lex_whereTokens hc,
    lex_groupByClause hc, lex_orderByClause hc, lex_limitClause]
  simp [selectTokens, endTokens]

end Chain

end QueryLoom
