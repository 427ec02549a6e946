import Mathlib.Data.List.SplitBy
import QueryLoom.Chain.Compile
import QueryLoom.Proofs.Chain.Invariant
import QueryLoom.Proofs.Condition.Grammar
import QueryLoom.Proofs.Statement.Scan

/-!
# What the conditions of a chain mean

The filters of a chain fall into runs: each run begins where a filter is attached with OR, the
first one with the first filter. The WHERE clause of the chain is read as the disjunction of its
runs, a run as the conjunction of its filters. A filter with a list is one factor of its run, so no
connective beside it reaches into it.
-/

set_option autoImplicit false

namespace QueryLoom

open Condition

/-! ## The condition of a chain -/

/-- A run ends in front of a filter that is attached with OR. -/
def Filter.runs (fs : List Filter) : List (List Filter) :=
  fs.splitBy fun _ g => g.connective == .and

theorem Filter.runs_eq_iff {fs : List Filter} {rs : List (List Filter)} :
    runs fs = rs ↔ fs = rs.flatten ∧ [] ∉ rs ∧
      (∀ run ∈ rs, run.IsChain fun _ g => (g.connective == .and) = true) ∧
      rs.IsChain fun a b =>
        ∃ (_ : a ≠ []) (hb : b ≠ []), ((b.head hb).connective == .and) = false :=
  List.splitBy_eq_iff

theorem Filter.flatten_runs (fs : List Filter) : (runs fs).flatten = fs :=
  (runs_eq_iff.mp rfl).1.symm

/-- Inside of a run, filters are attached with AND. -/
theorem Filter.mem_runs {fs run : List Filter} (h : run ∈ runs fs) :
    ∃ f rest, run = f :: rest ∧ ∀ g ∈ rest, g.connective = .and := by
  obtain ⟨-, hfilled, hinside, -⟩ := runs_eq_iff.mp (Eq.refl (runs fs))
  obtain ⟨f, rest, rfl⟩ := List.exists_cons_of_ne_nil fun hnil : run = [] => hfilled (hnil ▸ h)
  refine ⟨f, rest, rfl, ?_⟩
  have hchain := hinside _ h
  clear h
  induction rest generalizing f with
  | nil => simp
  | cons g rest ih =>
    obtain ⟨hg, hrest⟩ := List.isChain_cons_cons.mp hchain
    intro k hk
    rcases List.mem_cons.mp hk with rfl | hk
    · exact beq_iff_eq.mp hg
    · exact ih g hrest k hk

/-- Every run but the first one begins with OR. -/
theorem Filter.mem_tail_runs {fs run : List Filter} (h : run ∈ (runs fs).tail) :
    ∃ f rest, run = f :: rest ∧ f.connective = .or := by
  obtain ⟨-, -, -, hchain⟩ := runs_eq_iff.mp (Eq.refl (runs fs))
  revert h hchain
  generalize runs fs = rs
  intro h hchain
  cases rs with
  | nil => cases h
  | cons r rs =>
    induction rs generalizing r with
    | nil => cases h
    | cons s rs ih =>
      obtain ⟨⟨_, hne, hs⟩, hrest⟩ := List.isChain_cons_cons.mp hchain
      rcases List.mem_cons.mp h with rfl | h
      · obtain ⟨f, rest, rfl⟩ := List.exists_cons_of_ne_nil hne
        refine ⟨f, rest, rfl, ?_⟩
        have hand : f.connective ≠ .and := by simpa using hs
        cases hc : f.connective with
        | and => exact absurd hc hand
        | or => rfl
      · exact ih s h hrest

/-- A filter that is attached with AND goes into the last run. -/
theorem Filter.runs_append (fs : List Filter) {g : Filter} (hg : g.connective = .and) :
    runs (fs ++ [g]) = (runs fs).dropLast ++ [(runs fs).getLast?.getD [] ++ [g]] := by
  obtain ⟨hflat, hfilled, hinside, hbetween⟩ := runs_eq_iff.mp (Eq.refl (runs fs))
  rcases List.eq_nil_or_concat' (runs fs) with hnone | ⟨init, last, hruns⟩
  · rw [hnone] at hflat
    rw [hflat]
    rfl
  · rw [hruns] at hflat hfilled hinside hbetween ⊢
    have hlast : last ≠ [] := by
      rintro rfl
      simp at hfilled
    obtain ⟨f, rest, rfl⟩ := List.exists_cons_of_ne_nil hlast
    rw [List.dropLast_concat, List.getLast?_concat, Option.getD_some, runs_eq_iff]
    refine ⟨by simp [hflat], ?_, fun run hrun => ?_, ?_⟩
    · simpa using hfilled
    · rcases List.mem_append.mp hrun with hrun | hrun
      · exact hinside run (by simp [hrun])
      · rw [List.mem_singleton.mp hrun]
        exact List.isChain_append.mpr ⟨hinside _ (by simp), List.isChain_singleton _, by simp [hg]⟩
    · obtain ⟨hinit, -, hend⟩ := List.isChain_append.mp hbetween
      refine List.isChain_append.mpr ⟨hinit, List.isChain_singleton _, fun a ha b hb => ?_⟩
      obtain ⟨hne, _, hhead⟩ := hend a ha (f :: rest) (by simp)
      obtain rfl : (f :: rest) ++ [g] = b := by simpa using hb
      exact ⟨hne, by simp, hhead⟩

namespace Chain

def column (c : Chain) (f : Filter) : Term := .column (c.qualify ⟨f.table, f.column⟩)

def filterCondition (c : Chain) (f : Filter) : Condition :=
  match f.operand with
  | .key k => .test ⟨c.column f, f.operator, .placeholder k⟩
  | .null => .test ⟨c.column f, f.operator, .null⟩
  | .keys [] => .any [.all [.test ⟨.number 1, .equal, .number 0⟩]]
  | .keys ks => .any (ks.map fun k => .all [.test ⟨c.column f, f.operator, .placeholder k⟩])

def condition (c : Chain) : Condition :=
  .any ((Filter.runs c.filters).map fun run => .all (run.map c.filterCondition))

def filterHolds (c : Chain) (v : Test → Prop) (f : Filter) : Prop :=
  match f.operand with
  | .key k => v ⟨c.column f, f.operator, .placeholder k⟩
  | .null => v ⟨c.column f, f.operator, .null⟩
  | .keys ks => ∃ k ∈ ks, v ⟨c.column f, f.operator, .placeholder k⟩

theorem filterCondition_holds (c : Chain) (v : Test → Prop) (f : Filter) :
    (c.filterCondition f).holds v ↔ c.filterHolds v f := by
  unfold filterCondition filterHolds
  cases f.operand with
  | key k => rfl
  | null => rfl
  | keys ks =>
    cases ks with
    | nil => simp [Test.holds]
    | cons k ks => simp [Test.holds, column]

theorem condition_holds (c : Chain) (v : Test → Prop) :
    c.condition.holds v ↔ ∃ run ∈ Filter.runs c.filters, ∀ f ∈ run, c.filterHolds v f := by
  simp [condition, filterCondition_holds]

end Chain

/-! ## Its tokens -/

def Operator.tokens : Operator → List Token
  | .like => [.word "LIKE"]
  | .notLike => [.word "NOT", .word "LIKE"]
  | .is => [.word "IS"]
  | .isNot => [.word "IS", .word "NOT"]
  | op => [.symbol op.text]

def Connective.token (c : Connective) : Token := .word c.keyword

namespace Chain

def comparisonTokens (reference : String) (op : Operator) (key : String) : List Token :=
  .word reference :: op.tokens ++ [.placeholder key]

def alternativesTokens (reference : String) (op : Operator) : List String → List Token
  | [] => []
  | [k] => comparisonTokens reference op k
  | k :: ks => comparisonTokens reference op k ++ .word "OR" :: alternativesTokens reference op ks

def filterTokens (c : Chain) (f : Filter) : List Token :=
  let reference := c.qualify ⟨f.table, f.column⟩
  match f.operand with
  | .key k => comparisonTokens reference f.operator k
  | .null => .word reference :: f.operator.tokens ++ [.word "NULL"]
  | .keys [] => [.opening, .number 1, .symbol "=", .number 0, .closing]
  | .keys ks => .opening :: alternativesTokens reference f.operator ks ++ [.closing]

def moreTokens (c : Chain) : List Filter → List Token
  | [] => []
  | f :: fs => f.connective.token :: c.filterTokens f ++ c.moreTokens fs

def conditionTokens (c : Chain) : List Filter → List Token
  | [] => []
  | f :: fs => c.filterTokens f ++ c.moreTokens fs

/-! ## Reading the clause -/

theorem stops_weaken {rest : List Char} (h : Text.Stops isWordPart rest) :
    Text.Stops Placeholder.isNamePart rest := by
  intro c hc
  have hword := h c hc
  simp only [isWordPart, Bool.or_eq_false_iff] at hword
  exact hword.1

theorem qualify_isWord (c : Chain) {r : Reference} (h : r.IsNamed) : IsWord (c.qualify r) := by
  have hword : ∀ d, Placeholder.isNamePart d = true → isWordPart d = true := fun d hd => by
    simp [isWordPart, hd]
  obtain ⟨t, ts, htable, ht, hts⟩ := h.1.isName
  obtain ⟨k, ks, hcolumn, hk, hks⟩ := h.2.isName
  have hkpart : isWordPart k = true := hword k (Placeholder.isNamePart_of_isNameStart hk)
  unfold qualify
  split
  · refine ⟨t, ts ++ '.' :: k :: ks, by simp [htable, hcolumn], ht, fun d hd => ?_⟩
    rcases List.mem_append.mp hd with hd | hd
    · exact hword d (hts d hd)
    · rcases List.mem_cons.mp hd with rfl | hd
      · decide
      · rcases List.mem_cons.mp hd with rfl | hd
        · exact hkpart
        · exact hword d (hks d hd)
  · exact ⟨k, ks, hcolumn, hk, fun d hd => hword d (hks d hd)⟩

theorem lex_keyword {s : String} (hs : IsWord s) (rest : List Char) :
    lex (s.toList ++ ' ' :: rest) = .word s :: lex rest := by
  rw [lex_word hs (Text.stops_cons (by decide) rest), lex_space]

theorem isWord_literal {s : String} (c : Char) (cs : List Char) (h : s.toList = c :: cs)
    (hc : Placeholder.isNameStart c = true) (hcs : cs.all isWordPart = true) : IsWord s :=
  ⟨c, cs, h, hc, List.all_eq_true.mp hcs⟩

theorem lex_operator (op : Operator) (rest : List Char) :
    lex (op.text.toList ++ ' ' :: rest) = op.tokens ++ lex rest := by
  have hlike : IsWord "LIKE" := isWord_literal 'L' ['I', 'K', 'E'] rfl rfl rfl
  have hnot : IsWord "NOT" := isWord_literal 'N' ['O', 'T'] rfl rfl rfl
  have his : IsWord "IS" := isWord_literal 'I' ['S'] rfl rfl rfl
  cases op with
  | like => exact lex_keyword hlike rest
  | notLike =>
    change lex ("NOT".toList ++ ' ' :: ("LIKE".toList ++ ' ' :: rest)) = _
    rw [lex_keyword hnot, lex_keyword hlike]
    rfl
  | is => exact lex_keyword his rest
  | isNot =>
    change lex ("IS".toList ++ ' ' :: ("NOT".toList ++ ' ' :: rest)) = _
    rw [lex_keyword his, lex_keyword hnot]
    rfl
  | _ =>
    rw [lex_symbol (by decide) (by decide) (Text.stops_cons (by decide) rest), lex_space]
    rfl

section Reading

variable {reference : String} (href : IsWord reference)

include href

theorem lex_comparison (op : Operator) {k : String} (hk : IsName k) {rest : List Char}
    (hr : Text.Stops isWordPart rest) :
    lex ((comparison reference op k).toList ++ rest) =
      comparisonTokens reference op k ++ lex rest := by
  have htext : (comparison reference op k).toList ++ rest =
      reference.toList ++ ' ' :: (op.text.toList ++ ' ' :: (':' :: (k.toList ++ rest))) := by
    simp [comparison]
  rw [htext, lex_keyword href, lex_operator,
    lex_placeholder hk.isNamePart (stops_weaken hr)]
  simp [comparisonTokens]

theorem lex_alternatives (op : Operator) {ks : List String} (hne : ks ≠ [])
    (hks : ∀ k ∈ ks, IsName k) (rest : List Char) :
    lex ((" OR ".intercalate (ks.map (comparison reference op))).toList ++ ')' :: rest) =
      alternativesTokens reference op ks ++ .closing :: lex rest := by
  have hor : IsWord "OR" := isWord_literal 'O' ['R'] rfl rfl rfl
  induction ks with
  | nil => exact absurd rfl hne
  | cons k ks ih =>
    have hk := hks k (by simp)
    cases ks with
    | nil =>
      rw [List.map_singleton, String.intercalate_singleton,
        lex_comparison href op hk (Text.stops_cons (by decide) _), lex_closing]
      rfl
    | cons k' ks =>
      have hrest := ih (by simp) fun j hj => hks j (List.mem_cons_of_mem _ hj)
      have htext : (" OR ".intercalate ((k :: k' :: ks).map (comparison reference op))).toList ++
          ')' :: rest = (comparison reference op k).toList ++ ' ' :: ("OR".toList ++
            ' ' :: ((" OR ".intercalate ((k' :: ks).map (comparison reference op))).toList ++
              ')' :: rest)) := by
        simp [String.intercalate_cons_cons]
      rw [htext, lex_comparison href op hk (Text.stops_cons (by decide) _), lex_space,
        lex_keyword hor, hrest]
      simp [alternativesTokens]

end Reading

theorem lex_never (rest : List Char) :
    lex ("(1=0)".toList ++ rest) =
      [.opening, .number 1, .symbol "=", .number 0, .closing] ++ lex rest := by
  have hequals : ∀ cs, Text.Stops Char.isDigit ("=".toList ++ cs) := fun cs =>
    Text.stops_cons (by decide) cs
  have hzero : ∀ cs, Text.Stops isSymbol (['0'] ++ cs) := fun cs => Text.stops_cons (by decide) cs
  change lex ('(' :: (['1'] ++ ("=".toList ++ (['0'] ++ ')' :: rest)))) = _
  rw [lex_opening, lex_number (by decide) (by simp) (hequals _),
    lex_symbol (by decide) (by decide) (hzero _),
    lex_number (by decide) (by simp) (Text.stops_cons (by decide) _), lex_closing]
  rfl

/-- A filter is read up to where its text ends. -/
theorem lex_filterTerm (c : Chain) {f : Filter} (hf : Reference.IsNamed ⟨f.table, f.column⟩)
    (hkeys : ∀ k ∈ f.operand.keyList, IsName k) {rest : List Char}
    (hr : Text.Stops isWordPart rest) :
    lex ((c.filterTerm f).toList ++ rest) = c.filterTokens f ++ lex rest := by
  have href := c.qualify_isWord hf
  unfold filterTerm filterTokens
  unfold Operand.keyList at hkeys
  cases ho : f.operand with
  | key k =>
    rw [ho] at hkeys
    exact lex_comparison href f.operator (hkeys k (by simp)) hr
  | null =>
    have hnull : IsWord "NULL" := isWord_literal 'N' ['U', 'L', 'L'] rfl rfl rfl
    have htext : (c.qualify ⟨f.table, f.column⟩ ++ " " ++ f.operator.text ++ " NULL").toList ++
        rest = (c.qualify ⟨f.table, f.column⟩).toList ++ ' ' :: (f.operator.text.toList ++
          ' ' :: ("NULL".toList ++ rest)) := by
      simp
    simp only [htext]
    rw [lex_keyword href, lex_operator, lex_word hnull hr]
    simp
  | keys ks =>
    rw [ho] at hkeys
    cases ks with
    | nil =>
      exact lex_never rest
    | cons k ks =>
      have htext : ("(" ++ " OR ".intercalate ((k :: ks).map
          (comparison (c.qualify ⟨f.table, f.column⟩) f.operator)) ++ ")").toList ++ rest =
          '(' :: ((" OR ".intercalate ((k :: ks).map
            (comparison (c.qualify ⟨f.table, f.column⟩) f.operator))).toList ++ ')' :: rest) := by
        simp
      simp only [htext]
      rw [lex_opening, lex_alternatives href f.operator (by simp) hkeys]
      simp

theorem lex_moreTerms (c : Chain) {fs : List Filter}
    (hfs : ∀ f ∈ fs, Reference.IsNamed ⟨f.table, f.column⟩ ∧ ∀ k ∈ f.operand.keyList, IsName k) :
    Text.Stops isWordPart (c.moreTerms fs).toList ∧
      lex (c.moreTerms fs).toList = c.moreTokens fs := by
  induction fs with
  | nil => exact ⟨Text.stops_nil _, lex_nil⟩
  | cons f fs ih =>
    obtain ⟨hstops, hlex⟩ := ih fun g hg => hfs g (List.mem_cons_of_mem _ hg)
    obtain ⟨hnamed, hkeys⟩ := hfs f (by simp)
    have hword : IsWord f.connective.keyword := by
      cases f.connective with
      | and => exact isWord_literal 'A' ['N', 'D'] rfl rfl rfl
      | or => exact isWord_literal 'O' ['R'] rfl rfl rfl
    have htext : (c.moreTerms (f :: fs)).toList = ' ' :: (f.connective.keyword.toList ++
        ' ' :: ((c.filterTerm f).toList ++ (c.moreTerms fs).toList)) := by
      simp [moreTerms]
    rw [htext]
    refine ⟨Text.stops_cons (by decide) _, ?_⟩
    rw [lex_space, lex_keyword hword, lex_filterTerm c hnamed hkeys hstops, hlex]
    rfl

theorem lex_whereClause {c : Chain} (hc : c.WellFormed) (hne : c.filters ≠ []) :
    lex c.whereClause.toList = .word "WHERE" :: c.conditionTokens c.filters := by
  have hfs : ∀ f ∈ c.filters, Reference.IsNamed ⟨f.table, f.column⟩ ∧
      ∀ k ∈ f.operand.keyList, IsName k := fun f hf =>
    ⟨(hc.filters f hf).1, fun k hk => ((hc.filters f hf).2 k hk).isName⟩
  have hword : IsWord "WHERE" := isWord_literal 'W' ['H', 'E', 'R', 'E'] rfl rfl rfl
  unfold whereClause
  cases hfilters : c.filters with
  | nil => exact absurd hfilters hne
  | cons f fs =>
    rw [hfilters] at hfs
    obtain ⟨hnamed, hkeys⟩ := hfs f (by simp)
    obtain ⟨hstops, hlex⟩ := lex_moreTerms c fun g hg => hfs g (List.mem_cons_of_mem _ hg)
    have htext : ("WHERE " ++ c.filterTerm f ++ c.moreTerms fs).toList =
        "WHERE".toList ++ ' ' :: ((c.filterTerm f).toList ++ (c.moreTerms fs).toList) := by
      simp
    rw [htext, lex_keyword hword, lex_filterTerm c hnamed hkeys hstops, hlex]
    rfl

/-! ## Parsing the clause -/

theorem spells_tokens (op : Operator) : Spells op.tokens op := by
  cases op with
  | like => exact .like rfl
  | notLike => exact .notLike rfl rfl
  | is => exact .is rfl
  | isNot => exact .isNot rfl rfl
  | _ => exact .symbol _

theorem parses_comparison (reference : String) (op : Operator) (k : String) :
    Parses .factor (comparisonTokens reference op k)
      (.test ⟨.column reference, op, .placeholder k⟩) :=
  .test rfl (spells_tokens op) rfl

theorem parses_alternatives (reference : String) (op : Operator) {ks : List String}
    (hne : ks ≠ []) :
    Parses .disjunction (alternativesTokens reference op ks)
      (.any (ks.map fun k => .all [.test ⟨.column reference, op, .placeholder k⟩])) := by
  induction ks with
  | nil => exact absurd rfl hne
  | cons k ks ih =>
    have hk := Parses.lastFactor (parses_comparison reference op k)
    cases ks with
    | nil => exact .lastConjunction hk
    | cons k' ks => exact .or hk rfl (ih (by simp))

theorem parses_filter (c : Chain) (f : Filter) :
    Parses .factor (c.filterTokens f) (c.filterCondition f) := by
  unfold filterTokens filterCondition
  cases f.operand with
  | key k => exact parses_comparison _ f.operator k
  | null => exact .test rfl (spells_tokens f.operator) rfl
  | keys ks =>
    cases ks with
    | nil =>
      have hnever : Parses .factor (Token.number 1 :: [Token.symbol "="] ++ [Token.number 0])
          (.test ⟨.number 1, .equal, .number 0⟩) := .test rfl (.symbol .equal) rfl
      exact .group (.lastConjunction (.lastFactor hnever))
    | cons k ks => exact .group (parses_alternatives _ f.operator (by simp))

/-- Filters behind each other with AND. -/
theorem parses_run (c : Chain) (f : Filter) {fs : List Filter}
    (hand : ∀ g ∈ fs, g.connective = .and) :
    Parses .conjunction (c.conditionTokens (f :: fs))
      (.all ((f :: fs).map c.filterCondition)) := by
  induction fs generalizing f with
  | nil =>
    rw [conditionTokens, moreTokens, List.append_nil]
    exact .lastFactor (parses_filter c f)
  | cons g fs ih =>
    have hg : g.connective.token.keyword? = some .and := by
      rw [hand g (by simp)]
      rfl
    exact .and (parses_filter c f) hg (ih g fun k hk => hand k (List.mem_cons_of_mem _ hk))

theorem moreTokens_append (c : Chain) (fs gs : List Filter) :
    c.moreTokens (fs ++ gs) = c.moreTokens fs ++ c.moreTokens gs := by
  induction fs with
  | nil => rfl
  | cons f fs ih => simp [moreTokens, ih]

/-- Runs behind each other with OR. -/
theorem parses_runs (c : Chain) {rs : List (List Filter)} (hne : rs ≠ [])
    (hand : ∀ run ∈ rs, ∃ f rest, run = f :: rest ∧ ∀ g ∈ rest, g.connective = .and)
    (hor : ∀ run ∈ rs.tail, ∃ f rest, run = f :: rest ∧ f.connective = .or) :
    Parses .disjunction (c.conditionTokens rs.flatten)
      (.any (rs.map fun run => .all (run.map c.filterCondition))) := by
  induction rs with
  | nil => exact absurd rfl hne
  | cons run rs ih =>
    obtain ⟨f, fs, rfl, hfs⟩ := hand run (by simp)
    have hrun := parses_run c f hfs
    cases rs with
    | nil =>
      rw [List.flatten_singleton]
      exact .lastConjunction hrun
    | cons run' rs =>
      obtain ⟨g, gs, rfl, hg⟩ := hor run' (by simp)
      have hrest := ih (by simp) (fun r hr => hand r (List.mem_cons_of_mem _ hr))
        fun r hr => hor r (List.mem_cons_of_mem _ hr)
      have htoken : g.connective.token.keyword? = some .or := by
        rw [hg]
        rfl
      have htokens : c.conditionTokens ((f :: fs) :: (g :: gs) :: rs).flatten =
          c.conditionTokens (f :: fs) ++
            g.connective.token :: c.conditionTokens ((g :: gs) :: rs).flatten := by
        simp [conditionTokens, moreTokens, moreTokens_append]
      rw [htokens]
      exact .or hrun htoken hrest

theorem reads_condition {c : Chain} (hc : c.WellFormed) (hne : c.filters ≠ []) :
    Reads c.whereClause c.condition := by
  refine ⟨_, _, lex_whereClause hc hne, rfl, ?_⟩
  have hruns : Filter.runs c.filters ≠ [] := List.splitBy_ne_nil.mpr hne
  have hparse := parses_runs c hruns (fun run => Filter.mem_runs) fun run => Filter.mem_tail_runs
  rwa [Filter.flatten_runs] at hparse

/-- The WHERE clause of every chain is read in exactly one way, to its end: as the disjunction of
the runs of its filters, each run as the conjunction of its filters. The runs are all the filters
in their order, cut in front of each one that is attached with OR. -/
theorem reachable_whereClause {tablePrefix : String} {c : Chain} (h : Reachable tablePrefix c) :
    (c.filters = [] → c.whereClause = "") ∧
      (c.filters ≠ [] → ∀ φ, Reads c.whereClause φ ↔ φ = c.condition) ∧
      (Filter.runs c.filters).flatten = c.filters ∧
      (∀ run ∈ Filter.runs c.filters,
        ∃ f rest, run = f :: rest ∧ ∀ g ∈ rest, g.connective = .and) ∧
      (∀ run ∈ (Filter.runs c.filters).tail, ∃ f rest, run = f :: rest ∧ f.connective = .or) ∧
      ∀ v, c.condition.holds v ↔ ∃ run ∈ Filter.runs c.filters, ∀ f ∈ run, c.filterHolds v f := by
  refine ⟨fun hnone => ?_, fun hne φ => ⟨fun hφ => ?_, ?_⟩, Filter.flatten_runs c.filters,
    fun run => Filter.mem_runs, fun run => Filter.mem_tail_runs, condition_holds c⟩
  · rw [whereClause, hnone]
  · exact hφ.unique (reads_condition h.wellFormed hne)
  · rintro rfl
    exact reads_condition h.wellFormed hne

def searchVerbs : List Verb :=
  [.filter .or "role" "=" (.text "admin"), .filter .or "id" "=" (.list [.int 1, .int 2]),
    .filter .and "name" "not  like" (.text "a%"), .filter .or "email" "<>" .null,
    .filter .and "tag" "=" (.list [])]

theorem search_whereClause :
    Reachable "" ((start .select "users").run "" searchVerbs) ∧
      ((start .select "users").run "" searchVerbs).whereClause =
        "WHERE role = :usersorrole OR (id = :usersorid OR id = :usersorida) " ++
          "AND name NOT LIKE :usersandname OR email IS NOT NULL AND (1=0)" ∧
      ∀ φ, Reads ((start .select "users").run "" searchVerbs).whereClause φ ↔
        φ = .any [.all [.test ⟨.column "role", .equal, .placeholder "usersorrole"⟩],
          .all [.any [.all [.test ⟨.column "id", .equal, .placeholder "usersorid"⟩],
              .all [.test ⟨.column "id", .equal, .placeholder "usersorida"⟩]],
            .test ⟨.column "name", .notLike, .placeholder "usersandname"⟩],
          .all [.test ⟨.column "email", .isNot, .null⟩,
            .any [.all [.test ⟨.number 1, .equal, .number 0⟩]]]] := by
  have hname : Identifier.table "" "users" = .ok "users" := rfl
  have hreachable : Reachable "" ((start .select "users").run "" searchVerbs) :=
    (Reachable.started .select hname).run searchVerbs
  have hruns : Filter.runs ((start .select "users").run "" searchVerbs).filters =
      [[⟨"users", .or, "role", .equal, .key "usersorrole"⟩],
        [⟨"users", .or, "id", .equal, .keys ["usersorid", "usersorida"]⟩,
          ⟨"users", .and, "name", .notLike, .key "usersandname"⟩],
        [⟨"users", .or, "email", .isNot, .null⟩, ⟨"users", .and, "tag", .equal, .keys []⟩]] := by
    decide +kernel
  have halone : ((start .select "users").run "" searchVerbs).isMultiTable = false := by
    decide +kernel
  obtain ⟨-, hreads, -⟩ := reachable_whereClause hreachable
  refine ⟨hreachable, by decide +kernel, fun φ => (hreads (by decide +kernel) φ).trans ?_⟩
  rw [condition, hruns]
  simp [filterCondition, column, qualify, halone]

end Chain

end QueryLoom
