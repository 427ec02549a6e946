import QueryLoom.Proofs.Statement.Clauses
import QueryLoom.Proofs.Text.Collapse

/-!
# Statements without markers

A raw fragment is searched for markers by itself. None arises where it meets the rest of a
statement, since it stands between spaces and parentheses, nor where white space is collapsed,
since words stay apart. Everything else in a statement is made of characters of which no marker
consists, but for the star that stands for all columns.
-/

set_option autoImplicit false

namespace QueryLoom

def opensMarker (c : Char) (next : Option Char) : Bool :=
  c == ';' || c == '\x00' || (c == '-' && next == some '-') || (c == '/' && next == some '*') ||
    (c == '*' && next == some '/')

def isMark (c : Char) : Bool := [';', '\x00', '-', '/', '*'].contains c

theorem markerFree_nil : MarkerFree [] := by
  unfold MarkerFree
  decide

theorem markerFree_cons (c : Char) (cs : List Char) :
    MarkerFree (c :: cs) ↔ opensMarker c cs.head? = false ∧ MarkerFree cs := by
  have hopens : opensMarker c cs.head? = false ↔ ∀ m ∈ Marker.all, ¬ m.chars <+: c :: cs := by
    cases cs with
    | nil =>
      simp [opensMarker, Marker.all, Marker.chars]
      grind
    | cons d cs =>
      simp [opensMarker, Marker.all, Marker.chars]
      grind
  simp only [hopens, MarkerFree, List.infix_cons_iff, not_or, forall_and]

theorem opensMarker_of_not_isMark {c : Char} (h : isMark c = false) (next : Option Char) :
    opensMarker c next = false := by
  simp only [isMark, List.contains_cons, Bool.or_eq_false_iff] at h
  simp [opensMarker, h]

theorem not_isMark_of_isSafe {c : Char} (h : isSafe c = true) : isMark c = false := by
  simp only [isMark, List.contains_eq_mem, decide_eq_false_iff_not]
  intro hmem
  have hnone : ∀ d ∈ [';', '\x00', '-', '/', '*'], isSafe d = false := by decide
  rw [hnone c hmem] at h
  cases h

/-- No marker goes on into the text. -/
def Quiet (cs : List Char) : Prop := ∀ c, cs.head? = some c → isMark c = false

/-- Nothing without markers gets one by this text being put in front of it. -/
def Shielded (s : String) : Prop :=
  ∀ t, MarkerFree t → Quiet t → MarkerFree (s.toList ++ t) ∧ Quiet (s.toList ++ t)

theorem markerFree_append {cs t : List Char} (hcs : MarkerFree cs) (ht : MarkerFree t)
    (hq : Quiet t) : MarkerFree (cs ++ t) := by
  induction cs with
  | nil => exact ht
  | cons c cs ih =>
    rw [markerFree_cons] at hcs
    refine (markerFree_cons c _).mpr ⟨?_, ih hcs.2⟩
    cases cs with
    | cons d cs => exact hcs.1
    | nil =>
      cases t with
      | nil => exact hcs.1
      | cons d t =>
        have hd := hq d rfl
        simp only [isMark, List.contains_cons, Bool.or_eq_false_iff] at hd
        have hc := hcs.1
        simp only [opensMarker, List.head?_nil, Bool.or_eq_false_iff] at hc
        simp [opensMarker, hc, hd]

/-- Characters outside of markers keep a text free of them. -/
theorem markerFree_unmarked_append {cs t : List Char} (hcs : ∀ c ∈ cs, isMark c = false)
    (ht : MarkerFree t) : MarkerFree (cs ++ t) := by
  induction cs with
  | nil => exact ht
  | cons c cs ih =>
    exact (markerFree_cons c _).mpr ⟨opensMarker_of_not_isMark (hcs c (by simp)) _,
      ih fun d hd => hcs d (List.mem_cons_of_mem _ hd)⟩

theorem shielded_of_unmarked {s : String} (h : ∀ c ∈ s.toList, isMark c = false) :
    Shielded s := by
  intro t ht hq
  refine ⟨markerFree_unmarked_append h ht, fun c hc => ?_⟩
  cases hs : s.toList with
  | nil => exact hq c (by simpa [hs] using hc)
  | cons d ds =>
    obtain rfl : d = c := by simpa [hs] using hc
    exact h d (by simp [hs])

/-- A text without markers, behind safe characters. -/
theorem shielded_append {s f : String} (hs : IsSafe s) (hne : s.toList ≠ [])
    (hf : MarkerFree f.toList) : Shielded (s ++ f) := by
  have hmark : ∀ c ∈ s.toList, isMark c = false := fun c hc => not_isMark_of_isSafe (hs c hc)
  intro t ht hq
  rw [String.toList_append, List.append_assoc]
  refine ⟨markerFree_unmarked_append hmark (markerFree_append hf ht hq), fun c hc => ?_⟩
  obtain ⟨d, ds, hd⟩ := List.exists_cons_of_ne_nil hne
  obtain rfl : d = c := by simpa [hd] using hc
  exact hmark d (by simp [hd])

theorem Shielded.append {s s' : String} (h : Shielded s) (h' : Shielded s') :
    Shielded (s ++ s') := by
  intro t ht hq
  obtain ⟨ht', hq'⟩ := h' t ht hq
  rw [String.toList_append, List.append_assoc]
  exact h _ ht' hq'

theorem Shielded.markerFree {s : String} (h : Shielded s) : MarkerFree s.toList := by
  simpa using (h [] markerFree_nil (by simp [Quiet])).1

theorem shielded_safe (s : String) (h : IsSafe s) : Shielded s :=
  shielded_of_unmarked fun c hc => not_isMark_of_isSafe (h c hc)

theorem shielded_star {s : String} (hs : IsSafe s) (hne : s.toList ≠ []) :
    Shielded (s ++ "*") := by
  refine shielded_append hs hne ?_
  unfold MarkerFree
  decide

theorem shielded_composable : Composable Shielded where
  safe := shielded_safe
  append _ _ := Shielded.append
  selectStar := by
    rw [show "SELECT *" = "SELECT " ++ "*" by decide]
    exact shielded_star (by decide) (by decide)
  returningStar := by
    rw [show " RETURNING *" = " RETURNING " ++ "*" by decide]
    exact shielded_star (by decide) (by decide)

theorem opensMarker_of_head {c : Char} {next next' : Option Char}
    (h : ∀ d, next = some d → isMark d = false ∨ next' = some d)
    (hc : opensMarker c next' = false) : opensMarker c next = false := by
  cases next with
  | none => simp_all [opensMarker]
  | some d =>
    rcases h d rfl with hd | rfl
    · simp only [isMark, List.contains_cons, Bool.or_eq_false_iff] at hd
      simp only [opensMarker, Bool.or_eq_false_iff] at hc
      simp [opensMarker, hc, hd]
    · exact hc

/-- White space between words is no part of a marker. -/
theorem markerFree_collapseFrom {cs : List Char} (h : MarkerFree cs) (p : Text.Position) :
    MarkerFree (Text.collapseFrom Text.isBlank ' ' p cs) := by
  induction cs generalizing p with
  | nil => simpa using markerFree_nil
  | cons c cs ih =>
    obtain ⟨hc, hcs⟩ := (markerFree_cons c cs).mp h
    have hinside : MarkerFree (c :: Text.collapseFrom Text.isBlank ' ' .inside cs) := by
      refine (markerFree_cons c _).mpr ⟨opensMarker_of_head (fun d hd => ?_) hc, ih hcs .inside⟩
      rcases Text.head?_collapseFrom_inside hd with rfl | hhead
      · exact Or.inl (by decide)
      · exact Or.inr hhead
    have hafter : MarkerFree (' ' :: c :: Text.collapseFrom Text.isBlank ' ' .inside cs) :=
      (markerFree_cons ' ' _).mpr ⟨opensMarker_of_not_isMark (by decide) _, hinside⟩
    by_cases hb : Text.isBlank c = true <;> cases p <;>
      simp only [Text.collapseFrom, hb, if_true, if_false, Bool.false_eq_true] <;>
      first | exact ih hcs _ | assumption

theorem markerFree_collapse {cs : List Char} (h : MarkerFree cs) :
    MarkerFree (Text.collapse cs) := by
  rw [Text.collapse_eq_collapseFrom]
  exact markerFree_collapseFrom h .before

/-! ## Statements -/

def isPermitted (c : Char) : Bool :=
  c.isAlphanum || ['_', ' ', ',', '.', '(', ')', ':', '=', '<', '>', '!', '*'].contains c

def IsPermitted (s : String) : Prop := ∀ c ∈ s.toList, isPermitted c = true

instance (s : String) : Decidable (IsPermitted s) :=
  inferInstanceAs (Decidable (∀ c ∈ s.toList, isPermitted c = true))

theorem isPermitted_of_isSafe {c : Char} (h : isSafe c = true) : isPermitted c = true := by
  simp only [isSafe, isPermitted, List.contains_eq_mem, Bool.or_eq_true, decide_eq_true_eq,
    List.mem_cons] at h ⊢
  grind

theorem permitted_composable : Composable IsPermitted where
  safe s h c hc := isPermitted_of_isSafe (h c hc)
  append s s' h h' c hc := by
    rw [String.toList_append, List.mem_append] at hc
    exact hc.elim (h c) (h' c)
  selectStar := by decide
  returningStar := by decide

namespace Chain

variable {P : String → Prop} {c : Chain}

def PlaceholdersHave (P : String → Prop) : Prop := ∀ k, IsSafe k → P (placeholder k)

theorem comparison_has (hP : Composable P) (hk : PlaceholdersHave P) {reference k : String}
    (hr : IsSafe reference) (op : Operator) (hkey : IsSafe k) : P (comparison reference op k) := by
  have hsplit : comparison reference op k =
      reference ++ " " ++ op.text ++ " " ++ placeholder k := by
    simp only [comparison, placeholder, String.append_assoc]
    rw [← @String.append_assoc _ ":"]
    rfl
  rw [hsplit]
  refine hP.append _ _ (hP.append _ _ (hP.append _ _ (hP.append _ _ ?_ ?_) ?_) ?_) (hk k hkey)
  · exact hP.safe _ hr
  · exact hP.safe _ (by decide)
  · exact hP.safe _ op.text_isSafe
  · exact hP.safe _ (by decide)

theorem filterTerm_has (hP : Composable P) (hk : PlaceholdersHave P) {f : Filter}
    (h : Reference.IsNamed ⟨f.table, f.column⟩) (hkeys : ∀ k ∈ f.operand.keyList, IsSafe k) :
    P (c.filterTerm f) := by
  have href : IsSafe (c.qualify ⟨f.table, f.column⟩) := qualify_isSafe h
  unfold filterTerm
  cases ho : f.operand with
  | key k => exact comparison_has hP hk href f.operator (hkeys k (by simp [ho, Operand.keyList]))
  | null =>
    refine hP.append _ _ (hP.append _ _ (hP.append _ _ (hP.safe _ href) ?_) ?_) ?_
    · exact hP.safe _ (by decide)
    · exact hP.safe _ f.operator.text_isSafe
    · exact hP.safe " NULL" (by decide)
  | keys ks =>
    rw [ho] at hkeys
    cases ks with
    | nil => exact hP.safe "(1=0)" (by decide)
    | cons k ks =>
      refine hP.append _ _ (hP.append _ _ (hP.safe "(" (by decide)) ?_) (hP.safe ")" (by decide))
      refine hP.intercalate (by decide) fun s hs => ?_
      obtain ⟨j, hj, rfl⟩ := List.mem_map.mp hs
      exact comparison_has hP hk href f.operator (hkeys j hj)

theorem moreTerms_has (hP : Composable P) (hk : PlaceholdersHave P) {fs : List Filter}
    (h : ∀ f ∈ fs, Reference.IsNamed ⟨f.table, f.column⟩ ∧ ∀ k ∈ f.operand.keyList, IsSafe k) :
    P (c.moreTerms fs) := by
  induction fs with
  | nil => exact hP.empty
  | cons f fs ih =>
    obtain ⟨hnamed, hkeys⟩ := h f (by simp)
    refine hP.append _ _ (hP.append _ _ (hP.append _ _ (hP.append _ _ ?_ ?_) ?_) ?_) ?_
    · exact hP.safe _ (by decide)
    · exact hP.safe _ f.connective.keyword_isSafe
    · exact hP.safe _ (by decide)
    · exact filterTerm_has hP hk hnamed hkeys
    · exact ih fun g hg => h g (List.mem_cons_of_mem _ hg)

theorem whereClause_has (hP : Composable P) (hk : PlaceholdersHave P) (h : c.WellFormed) :
    P c.whereClause := by
  have hfilters : ∀ f ∈ c.filters, Reference.IsNamed ⟨f.table, f.column⟩ ∧
      ∀ k ∈ f.operand.keyList, IsSafe k := fun f hf =>
    ⟨(h.filters f hf).1, fun k hkey => ((h.filters f hf).2 k hkey).isSafe⟩
  unfold whereClause
  cases hc : c.filters with
  | nil => exact hP.empty
  | cons f fs =>
    rw [hc] at hfilters
    obtain ⟨hnamed, hkeys⟩ := hfilters f (by simp)
    refine hP.append _ _ (hP.append _ _ (hP.safe "WHERE " (by decide)) ?_) ?_
    · exact filterTerm_has hP hk hnamed hkeys
    · exact moreTerms_has hP hk fun g hg => hfilters g (List.mem_cons_of_mem _ hg)

/-- What holds of the parts of a statement holds of the whole. -/
theorem statement_has (hP : Composable P) (hk : PlaceholdersHave P) (h : c.WellFormed)
    {d : Dialect} (hg : c.GroupsHave d P) (hon : c.ConditionsHave P) {table s : String}
    (ht : IsIdentifier table) {op : Operation} (hs : c.statement d table op = .ok s) : P s := by
  have hwhere := whereClause_has hP hk h
  have hcolumns : ∀ e ∈ c.payload, IsSafe e.1 := fun e he => (h.payload e he).isSafe
  obtain ⟨-, rfl⟩ := statement_eq_ok_iff.mp hs
  cases op with
  | select =>
    rw [statementText, selectStatement_eq]
    exact hP.append _ _ (hP.append _ _ (selectHead_has hP h hg hon ht) hwhere)
      (selectTail_has hP h d)
  | insert =>
    rw [statementText, insertStatement_eq]
    refine hP.append _ _ (hP.append _ _ (insertHead_has hP h ht) ?_) (insertTail_has hP d)
    refine hP.intercalate (by decide) fun s hs => ?_
    simp only [List.map_map, List.mem_map, Function.comp_apply] at hs
    obtain ⟨e, he, rfl⟩ := hs
    exact hk _ (hcolumns e he)
  | update =>
    refine hP.append _ _ (hP.append _ _ (hP.append _ _ (hP.append _ _ (hP.append _ _ ?_ ?_) ?_)
      ?_) ?_) hwhere
    · exact hP.safe _ (by decide)
    · exact hP.safe _ ht.isSafe
    · exact hP.safe _ (by decide)
    · refine hP.intercalate (by decide) fun s hs => ?_
      obtain ⟨e, he, rfl⟩ := List.mem_map.mp hs
      exact hP.append _ _ (hP.append _ _ (hP.safe _ (hcolumns e he)) (hP.safe _ (by decide)))
        (hk _ (hcolumns e he))
    · exact hP.safe _ (by decide)
  | delete =>
    cases hs
    refine hP.append _ _ (hP.append _ _ (hP.append _ _ ?_ ?_) ?_) hwhere
    · exact hP.safe _ (by decide)
    · exact hP.safe _ ht.isSafe
    · exact hP.safe _ (by decide)

theorem shielded_groupsHave (h : c.WellFormed) (d : Dialect) : c.GroupsHave d Shielded := by
  intro g hg
  obtain ⟨⟨-, hexpr⟩, hlabel⟩ := h.groupConcats g hg
  have hlabel' := shielded_safe g.label hlabel.isSafe
  cases d with
  | mySql =>
    refine ((shielded_append ?_ ?_ hexpr).append (shielded_safe ") AS " ?_)).append hlabel' <;>
      decide
  | postgres =>
    refine ((shielded_append ?_ ?_ hexpr).append (shielded_of_unmarked ?_)).append hlabel' <;>
      decide

theorem shielded_conditionsHave (h : c.WellFormed) : c.ConditionsHave Shielded :=
  fun j hj => shielded_append (by decide) (by decide) (h.joins j hj).2.2

theorem shielded_placeholdersHave : PlaceholdersHave Shielded := fun k hk =>
  (shielded_of_unmarked (by decide)).append (shielded_safe k hk)

theorem permitted_placeholdersHave : PlaceholdersHave IsPermitted := fun k hk =>
  permitted_composable.append _ _ (by decide) (permitted_composable.safe k hk)

/-- Whatever was passed to the verbs of a chain, no marker stands in its statement; without joins
and joined groups, only the characters of names, placeholders and comparisons do. -/
theorem run_markerFree {tablePrefix name table : String}
    (hname : Identifier.table tablePrefix name = .ok table) (op : Operation) (verbs : List Verb)
    (d : Dialect) {q : Compiled}
    (hq : ((start op table).run tablePrefix verbs).compile d = .ok q) :
    MarkerFree q.sql.toList ∧
      (((start op table).run tablePrefix verbs).joins = [] →
        ((start op table).run tablePrefix verbs).groupConcats = [] → IsPermitted q.sql) := by
  have htable := Identifier.table_ok hname
  have hc : ((start op table).run tablePrefix verbs).WellFormed :=
    run_wellFormed (start_wellFormed htable) verbs
  obtain ⟨hhead, hop⟩ := run_start_head tablePrefix op table verbs
  rw [compile_eq hhead hop] at hq
  cases hs : ((start op table).run tablePrefix verbs).statement d table op with
  | error e => simp [hs, Except.map] at hq
  | ok s =>
    rw [hs] at hq
    cases hq
    simp only [String.toList_ofList]
    refine ⟨markerFree_collapse (statement_has shielded_composable shielded_placeholdersHave hc
      (shielded_groupsHave hc d) (shielded_conditionsHave hc) htable hs).markerFree, ?_⟩
    intro hjoins hgroups
    have hpermitted : IsPermitted s := by
      refine statement_has permitted_composable permitted_placeholdersHave hc ?_ ?_ htable hs
      · intro g hg
        rw [hgroups] at hg
        cases hg
      · intro j hj
        rw [hjoins] at hj
        cases hj
    intro ch hch
    rw [String.toList_ofList] at hch
    rcases Text.mem_collapse hch with rfl | ⟨hmem, -⟩
    · decide
    · exact hpermitted ch hmem

def hostileVerbs : List Verb :=
  [.filter .and "name;--" "=" (.int 1), .orderBy "id /*" none,
    .filter .or "Name" " = " (.list [.text "'; DROP TABLE t; --", .text "/*"])]

theorem hostile_markerFree :
    ∃ q, ((start .delete "users").run "" hostileVerbs).compile .mySql = .ok q ∧
      q.sql = "DELETE FROM users WHERE (name = :usersornameDROPTABLEt OR name = :usersorname)" ∧
      MarkerFree q.sql.toList ∧ IsPermitted q.sql := by
  have hname : Identifier.table "" "Users " = .ok "users" := rfl
  obtain ⟨hfree, hpermitted⟩ := run_markerFree hname .delete hostileVerbs .mySql rfl
  exact ⟨_, rfl, by decide, hfree, hpermitted rfl rfl⟩

end Chain

end QueryLoom
