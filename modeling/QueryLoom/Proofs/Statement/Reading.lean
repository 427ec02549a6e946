import QueryLoom.Proofs.Statement.References
import QueryLoom.Proofs.Statement.Tokens

/-!
# What a SELECT tells of its chain

The tokens of a SELECT without joins and aggregates are read back clause by clause. No name is
reserved: behind a selected column stands a comma or FROM, behind a condition a connective or the
next clause, so a column called like a keyword is told from it by where it stands. Two chains with
the same statement therefore show the same, and what they do not show is the table of a bare
reference, the column and operator of a filter on an empty list, and the first connective.
-/

set_option autoImplicit false

namespace QueryLoom

open Condition

namespace Chain

/-! ## Reading it back -/

section Back

variable {c c' : Chain} {us us' : List Token}

theorem listTokens_inj {ws ws' : List String}
    (h : listTokens ws ++ .word "FROM" :: us = listTokens ws' ++ .word "FROM" :: us') :
    ws = ws' ∧ us = us' := by
  induction ws generalizing ws' with
  | nil =>
    rcases ws' with _ | ⟨w', _ | ⟨v', ws'⟩⟩ <;> simp_all [listTokens]
  | cons w ws ih =>
    cases ws with
    | nil => rcases ws' with _ | ⟨w', _ | ⟨v', ws'⟩⟩ <;> simp_all [listTokens]
    | cons v ws =>
      rcases ws' with _ | ⟨w', _ | ⟨v', ws'⟩⟩
      · simp [listTokens] at h
      · simp [listTokens] at h
      · -- Both lists go on, as the commas say.
        simp only [listTokens, List.cons_append, List.cons.injEq, Token.word.injEq, true_and] at h
        obtain ⟨hlist, hrest⟩ := ih h.2
        exact ⟨by rw [h.1, hlist], hrest⟩

/-- The condition of a filter is as good as what is shown of it. -/
theorem shownFilter_eq {f g : Filter} (h : c.filterCondition f = c'.filterCondition g) :
    c.shownFilter f = c'.shownFilter g := by
  unfold filterCondition column at h
  unfold shownFilter
  rcases hf : f.operand with k | (_ | ⟨k, ks⟩) | _ <;>
    rcases hg : g.operand with k' | (_ | ⟨k', ks'⟩) | _ <;> simp_all
  obtain ⟨⟨hreference, hoperator, -⟩, hkeys⟩ := h
  rw [hreference, hoperator] at hkeys
  exact (List.map_inj_right (by simp)).mp hkeys

theorem filterTokens_inj {f g : Filter}
    (h : c.filterTokens f ++ us = c'.filterTokens g ++ us') :
    c.shownFilter f = c'.shownFilter g ∧ us = us' := by
  obtain ⟨htokens, hcondition⟩ :=
    parses_unique (parses_filter c f) (parses_filter c' g) h trivial trivial
  rw [htokens] at h
  exact ⟨shownFilter_eq hcondition, List.append_cancel_left h⟩

def Closes (ts : List Token) : Prop := ∀ k : Connective, ts.head? ≠ some k.token

theorem Connective.token_inj {k k' : Connective} (h : k.token = k'.token) : k = k' := by
  cases k <;> cases k' <;> simp_all [Connective.token, Connective.keyword]

theorem moreTokens_inj {fs gs : List Filter} (hus : Closes us) (hus' : Closes us')
    (h : c.moreTokens fs ++ us = c'.moreTokens gs ++ us') :
    fs.map (fun f => (f.connective, c.shownFilter f)) =
      gs.map (fun g => (g.connective, c'.shownFilter g)) ∧ us = us' := by
  induction fs generalizing gs with
  | nil =>
    cases gs with
    | nil => exact ⟨rfl, h⟩
    | cons g gs => exact absurd (congrArg List.head? h) (hus g.connective)
  | cons f fs ih =>
    cases gs with
    | nil => exact absurd (congrArg List.head? h.symm) (hus' f.connective)
    | cons g gs =>
      simp only [moreTokens, List.cons_append, List.append_assoc, List.cons.injEq] at h
      obtain ⟨hfilter, hmore⟩ := filterTokens_inj h.2
      obtain ⟨hrest, hend⟩ := ih hmore
      refine ⟨?_, hend⟩
      rw [List.map_cons, List.map_cons, Connective.token_inj h.1, hfilter, hrest]

theorem whereTokens_inj (hus : Closes us) (hus' : Closes us')
    (hwhere : us.head? ≠ some (.word "WHERE")) (hwhere' : us'.head? ≠ some (.word "WHERE"))
    (h : c.whereTokens ++ us = c'.whereTokens ++ us') :
    c.shown.filters = c'.shown.filters ∧ c.shown.connectives = c'.shown.connectives ∧
      us = us' := by
  unfold whereTokens at h
  unfold shown
  rcases hf : c.filters with _ | ⟨f, fs⟩ <;> rcases hg : c'.filters with _ | ⟨g, gs⟩
  · rw [hf, hg] at h
    exact ⟨rfl, rfl, h⟩
  · rw [hf, hg] at h
    exact absurd (congrArg List.head? h) hwhere
  · rw [hf, hg] at h
    exact absurd (congrArg List.head? h.symm) hwhere'
  · rw [hf, hg] at h
    simp only [conditionTokens, List.cons_append, List.append_assoc, List.cons.injEq,
      true_and] at h
    obtain ⟨hfirst, hmore⟩ := filterTokens_inj h
    obtain ⟨hrest, hend⟩ := moreTokens_inj hus hus' hmore
    refine ⟨?_, ?_, hend⟩
    · have hfilters := congrArg (List.map Prod.snd) hrest
      simp only [List.map_map] at hfilters
      exact congrArg₂ List.cons hfirst hfilters
    · have hconnectives := congrArg (List.map Prod.fst) hrest
      simp only [List.map_map] at hconnectives
      exact hconnectives

section Clauses

variable {α : Type} {keyword : String} {tokens : α → List Token} {o o' : Option α}

/-- Whether there is a clause is told by its keyword. -/
theorem clauseTokens_inj
    (hinj : ∀ {a a' : α}, tokens a ++ us = tokens a' ++ us' → a = a' ∧ us = us')
    (hus : us.head? ≠ some (.word keyword)) (hus' : us'.head? ≠ some (.word keyword))
    (h : clauseTokens keyword tokens o ++ us = clauseTokens keyword tokens o' ++ us') :
    o = o' ∧ us = us' := by
  cases o with
  | none =>
    cases o' with
    | none => exact ⟨rfl, h⟩
    | some a' => exact absurd (congrArg List.head? h) hus
  | some a =>
    cases o' with
    | none => exact absurd (congrArg List.head? h.symm) hus'
    | some a' =>
      obtain ⟨hclause, hrest⟩ := hinj (List.cons.inj h).2
      exact ⟨congrArg some hclause, hrest⟩

theorem head?_clauseTokens {t : Token} (h : (clauseTokens keyword tokens o ++ us).head? = some t) :
    t = .word keyword ∨ us.head? = some t := by
  cases o with
  | none => exact Or.inr h
  | some a => exact Or.inl (Option.some.inj h).symm

end Clauses

theorem groupByTokens_inj {r r' : Option String} (hus : us.head? ≠ some (.word "GROUP"))
    (hus' : us'.head? ≠ some (.word "GROUP"))
    (h : groupByTokens r ++ us = groupByTokens r' ++ us') : r = r' ∧ us = us' := by
  refine clauseTokens_inj (fun hclause => ?_) hus hus' h
  simpa using hclause

theorem Direction.keyword_inj {k k' : Direction} (h : k.keyword = k'.keyword) : k = k' := by
  cases k <;> cases k' <;> simp_all [Direction.keyword]

theorem orderByTokens_inj {s s' : Option (String × Direction)}
    (hus : us.head? ≠ some (.word "ORDER")) (hus' : us'.head? ≠ some (.word "ORDER"))
    (h : orderByTokens s ++ us = orderByTokens s' ++ us') : s = s' ∧ us = us' := by
  refine clauseTokens_inj (fun hclause => ?_) hus hus' h
  simp only [List.cons_append, List.nil_append, List.cons.injEq, Token.word.injEq,
    true_and] at hclause
  obtain ⟨hreference, hkeyword, hrest⟩ := hclause
  exact ⟨Prod.ext hreference (Direction.keyword_inj hkeyword), hrest⟩

theorem boundTokens_inj {d : Dialect} {l l' : Limit} (h : boundTokens d l = boundTokens d l') :
    l = l' := by
  rcases l with ⟨offset, _ | count⟩ <;> rcases l' with ⟨offset', _ | count'⟩ <;> cases d <;>
    simp_all [boundTokens]

theorem limitTokens_inj {d : Dialect} {l l' : Option Limit}
    (h : limitTokens d l = limitTokens d l') : l = l' := by
  have hinj : ∀ {b b' : Limit}, boundTokens d b ++ [] = boundTokens d b' ++ [] →
      b = b' ∧ ([] : List Token) = [] := by
    intro b b' hbound
    rw [List.append_nil, List.append_nil] at hbound
    exact ⟨boundTokens_inj hbound, rfl⟩
  rw [← List.append_nil (limitTokens d l), ← List.append_nil (limitTokens d l')] at h
  exact (clauseTokens_inj hinj (by simp) (by simp) h).1

theorem head?_limitTokens {d : Dialect} {l : Option Limit} {t : Token}
    (h : (limitTokens d l).head? = some t) : t = .word "LIMIT" := by
  rw [← List.append_nil (limitTokens d l)] at h
  exact (head?_clauseTokens h).resolve_right (by simp)

theorem head?_orderByTokens {s : Option (String × Direction)} {d : Dialect} {l : Option Limit}
    {t : Token} (h : (orderByTokens s ++ limitTokens d l).head? = some t) :
    t = .word "ORDER" ∨ t = .word "LIMIT" :=
  (head?_clauseTokens h).imp_right head?_limitTokens

theorem head?_endTokens {d : Dialect} {t : Token} (h : (c.endTokens d).head? = some t) :
    t = .word "GROUP" ∨ t = .word "ORDER" ∨ t = .word "LIMIT" :=
  (head?_clauseTokens h).imp_right head?_orderByTokens

theorem endTokens_closes (c : Chain) (d : Dialect) : Closes (c.endTokens d) := by
  intro k h
  have hword := head?_endTokens h
  cases k <;> simp [Connective.token, Connective.keyword] at hword

theorem endTokens_inj {d : Dialect} (h : c.endTokens d = c'.endTokens d) :
    c.shown.groupBy = c'.shown.groupBy ∧ c.shown.sort = c'.shown.sort ∧ c.limit = c'.limit := by
  have horder : ∀ b : Chain,
      (orderByTokens b.shown.sort ++ limitTokens d b.limit).head? ≠ some (.word "GROUP") :=
    fun b hb => by simpa using head?_orderByTokens hb
  have hlimit : ∀ b : Chain, (limitTokens d b.limit).head? ≠ some (.word "ORDER") :=
    fun b hb => by simpa using head?_limitTokens hb
  obtain ⟨hgroupBy, hrest⟩ := groupByTokens_inj (horder c) (horder c') h
  obtain ⟨hsort, hend⟩ := orderByTokens_inj (hlimit c) (hlimit c') hrest
  exact ⟨hgroupBy, hsort, limitTokens_inj hend⟩

/-- Clause by clause, the tokens tell what is shown. -/
theorem selectTokens_inj {d : Dialect} {table table' : String} (ht : c.table = some table)
    (ht' : c'.table = some table') (h : c.selectTokens d table = c'.selectTokens d table') :
    c.shown = c'.shown := by
  have hwhere : ∀ b : Chain, (b.endTokens d).head? ≠ some (.word "WHERE") :=
    fun b hb => by simpa using head?_endTokens hb
  rw [selectTokens, selectTokens, List.cons_append, List.cons_append] at h
  obtain ⟨hselected, hbehind⟩ := listTokens_inj (List.cons.inj h).2
  obtain ⟨htable, hclauses⟩ := List.cons.inj hbehind
  obtain ⟨hfilters, hconnectives, hend⟩ := whereTokens_inj (endTokens_closes c d)
    (endTokens_closes c' d) (hwhere c) (hwhere c') hclauses
  obtain ⟨hgroupBy, hsort, hlimit⟩ := endTokens_inj hend
  have htables : c.table = c'.table := by rw [ht, ht', Token.word.inj htable]
  calc c.shown = ⟨c.table, c.shown.selected, c.shown.filters, c.shown.connectives,
        c.shown.groupBy, c.shown.sort, c.limit⟩ := rfl
    _ = c'.shown := by
      rw [htables, hselected, hfilters, hconnectives, hgroupBy, hsort, hlimit]
      rfl

end Back

/-! ## References behind their names -/

section Names

variable {c c' : Chain} {table table' : String}

theorem IsIdentifier.no_point {s : String} (h : IsIdentifier s) : '.' ∉ s.toList := fun hpoint =>
  absurd (h.isPart hpoint) (by decide)

theorem point_mem_qualify {r : Reference} (h : r.IsNamed) :
    '.' ∈ (c.qualify r).toList ↔ c.isMultiTable = true := by
  unfold qualify
  split
  · simp_all
  · simpa [*] using IsIdentifier.no_point h.2

/-- With its table, a reference can be told from its name. -/
theorem qualified_inj {r r' : Reference} (h : r.IsNamed) (h' : r'.IsNamed)
    (heq : r.qualified = r'.qualified) : r = r' := by
  have hchars := congrArg String.toList heq
  simp only [Reference.qualified, String.toList_append, List.append_assoc] at hchars
  obtain ⟨htable, hcolumn⟩ := h.1.append_cons_inj h'.1 (by decide) hchars
  cases r
  cases r'
  rw [Reference.mk.injEq]
  exact ⟨htable, String.toList_injective hcolumn⟩

theorem map_qualified_inj {rs rs' : List Reference} (h : ∀ r ∈ rs, r.IsNamed)
    (h' : ∀ r ∈ rs', r.IsNamed)
    (heq : rs.map Reference.qualified = rs'.map Reference.qualified) : rs = rs' := by
  induction rs generalizing rs' with
  | nil => simpa using heq.symm
  | cons r rs ih =>
    obtain ⟨r', rs', rfl, hr, hrs⟩ := List.map_eq_cons_iff.mp heq.symm
    rw [qualified_inj (h r (by simp)) (h' r' (by simp)) hr.symm,
      ih (fun a ha => h a (List.mem_cons_of_mem _ ha))
        (fun a ha => h' a (List.mem_cons_of_mem _ ha)) hrs.symm]

theorem references_isNamed (h : c.WellFormed) : ∀ r ∈ c.references, r.IsNamed := by
  intro r hr
  simp only [references, List.mem_append, List.mem_flatMap, Option.mem_toList,
    Option.map_eq_some_iff] at hr
  rcases hr with ((hr | ⟨f, hf, hr⟩) | hr) | ⟨s, hs, rfl⟩
  · exact selectedReferences_isNamed h r hr
  · have hnamed := (h.filters f hf).1
    unfold Filter.references at hr
    split at hr
    · obtain ⟨k, -, rfl⟩ := List.mem_map.mp hr
      exact hnamed
    · rw [List.mem_singleton.mp hr]
      exact hnamed
  · exact h.groupBy r hr
  · exact h.sort s hs

def shownNames : Option (String × Operator × Operand) → List String
  | some (r, _, .keys ks) => ks.map fun _ => r
  | some (r, _, _) => [r]
  | none => []

theorem map_qualify_references (c : Chain) :
    c.references.map c.qualify =
      c.shown.selected ++ c.shown.filters.flatMap shownNames ++ c.shown.groupBy.toList ++
        (c.shown.sort.map Prod.fst).toList := by
  have hfilter : ∀ f : Filter, f.references.map c.qualify = shownNames (c.shownFilter f) := by
    intro f
    unfold Filter.references shownFilter
    rcases f.operand with k | (_ | ⟨k, ks⟩) | _ <;> simp [shownNames]
  have hfilters : (c.filters.flatMap Filter.references).map c.qualify =
      c.shown.filters.flatMap shownNames := by
    simp [shown, List.map_flatMap, List.flatMap_map, hfilter]
  have hsort : ((c.sort.map SortTerm.reference).toList).map c.qualify =
      (c.shown.sort.map Prod.fst).toList := by
    unfold shown
    cases c.sort <;> rfl
  have hgroupBy : c.groupBy.toList.map c.qualify = c.shown.groupBy.toList := by
    unfold shown
    cases c.groupBy <;> rfl
  simp only [references, List.map_append, hfilters, hsort, hgroupBy]
  rfl

end Names

/-- A chain that a program can come to, and that selects without joins and aggregates. -/
structure Plain (tablePrefix : String) (c : Chain) : Prop where
  reachable : Reachable tablePrefix c
  operation : c.operation = some .select
  joins : c.joins = []
  groupConcats : c.groupConcats = []

theorem Reachable.targeted {tablePrefix : String} {c : Chain} (h : Reachable tablePrefix c)
    {op : Operation} (hop : c.operation = some op) :
    ∃ table, c.table = some table ∧ c.Registered table := by
  induction h with
  | started operation _ => exact ⟨_, rfl, start_registered operation _⟩
  | left => cases hop
  | @after c h v ih =>
    obtain ⟨htable, hoperation⟩ := run_head tablePrefix c [v]
    obtain ⟨table, ht, hregistered⟩ := ih (hoperation.symm.trans hop)
    exact ⟨table, htable.trans ht, run_invariant step_registered hregistered [v]⟩

namespace Plain

variable {tablePrefix tablePrefix' : String} {c c' : Chain}

theorem isMultiTable_iff (h : c.Plain tablePrefix) :
    c.isMultiTable = true ↔ ∃ w ∈ c.shown.selected, '.' ∈ w.toList := by
  obtain ⟨table, -, hregistered⟩ := h.reachable.targeted h.operation
  have hnamed := selectedReferences_isNamed h.reachable.wellFormed
  constructor
  · intro hmulti
    have hother := hmulti
    rw [hregistered.isMultiTable_eq, accompanied_iff, h.joins] at hother
    obtain ⟨r, hr, -⟩ := hother.resolve_left (by simp)
    exact ⟨c.qualify r, List.mem_map_of_mem hr, (point_mem_qualify (hnamed r hr)).mpr hmulti⟩
  · rintro ⟨w, hw, hpoint⟩
    obtain ⟨r, hr, rfl⟩ := List.mem_map.mp hw
    exact (point_mem_qualify (hnamed r hr)).mp hpoint

/-- Where references have their tables, the names that are shown tell which they are. -/
theorem references_eq (h : c.Plain tablePrefix) (h' : c'.Plain tablePrefix')
    (hshown : c.shown = c'.shown) (hmulti : c.isMultiTable = true)
    (hmulti' : c'.isMultiTable = true) : c.references = c'.references := by
  have hspelled : c.qualify = Reference.qualified := funext fun r => if_pos hmulti
  have hspelled' : c'.qualify = Reference.qualified := funext fun r => if_pos hmulti'
  have hnames := c.map_qualify_references
  rw [hshown, ← map_qualify_references, hspelled, hspelled'] at hnames
  exact map_qualified_inj (references_isNamed h.reachable.wellFormed)
    (references_isNamed h'.reachable.wellFormed) hnames

/-- A bare column is one of the table that the statement is on. -/
theorem selectedReferences_single (h : c.Plain tablePrefix) {table : String}
    (ht : c.table = some table) (hsingle : c.isMultiTable = false) :
    c.selectedReferences = c.shown.selected.map fun column => ⟨table, column⟩ := by
  obtain ⟨table', ht', hregistered⟩ := h.reachable.targeted h.operation
  obtain rfl : table = table' := Option.some.inj (ht.symm.trans ht')
  have halone : ∀ r ∈ c.selectedReferences, r.table = table := by
    intro r hr
    by_contra hother
    have haccompanied := accompanied_iff.mpr (Or.inr ⟨r, hr, hother⟩)
    rw [← hregistered.isMultiTable_eq, hsingle] at haccompanied
    cases haccompanied
  have hid : c.selectedReferences.map id =
      c.selectedReferences.map fun r => ⟨table, c.qualify r⟩ := by
    refine List.map_congr_left fun r hr => ?_
    rw [qualify, hsingle, ← halone r hr]
    rfl
  rw [List.map_id] at hid
  exact hid.trans (by simp [shown])

theorem selectedReferences_eq (h : c.Plain tablePrefix) (h' : c'.Plain tablePrefix')
    (hshown : c.shown = c'.shown) (hmulti : c.isMultiTable = c'.isMultiTable) :
    c.selectedReferences = c'.selectedReferences := by
  cases hc : c.isMultiTable with
  | true =>
    have hreferences := h.references_eq h' hshown hc (hmulti ▸ hc)
    have hlength : c.selectedReferences.length = c'.selectedReferences.length := by
      simpa [shown] using congrArg (fun s => s.selected.length) hshown
    simp only [references, List.append_assoc] at hreferences
    exact (List.append_inj hreferences hlength).1
  | false =>
    obtain ⟨table, ht, -⟩ := h.reachable.targeted h.operation
    have ht' : c'.table = some table := (congrArg Shown.table hshown).symm.trans ht
    rw [h.selectedReferences_single ht hc, h'.selectedReferences_single ht' (hmulti ▸ hc), hshown]

end Plain

/-- Two SELECTs without joins and aggregates have the same text in a dialect only if all agrees
that they show: the table, the selected columns, the filters with their operators and keys, the
connectives between them, group, sort and limit. A filter on an empty list shows no more than that
it is there. The selected columns agree with their tables, and if there is more than one table, so
does every other reference. -/
theorem shown_of_sql_eq {tablePrefix tablePrefix' : String} {c c' : Chain}
    (h : c.Plain tablePrefix) (h' : c'.Plain tablePrefix') (d : Dialect) :
    ∃ q q', c.compile d = .ok q ∧ c'.compile d = .ok q' ∧
      (q.sql = q'.sql → c.shown = c'.shown ∧ c.isMultiTable = c'.isMultiTable ∧
        c.selectedReferences = c'.selectedReferences ∧
        (c.isMultiTable = true → c.references = c'.references)) := by
  obtain ⟨table, ht, -⟩ := h.reachable.targeted h.operation
  obtain ⟨table', ht', -⟩ := h'.reachable.targeted h'.operation
  have hlex := lex_selectStatement h.reachable.wellFormed h.joins h.groupConcats d
    (h.reachable.wellFormed.table table ht)
  have hlex' := lex_selectStatement h'.reachable.wellFormed h'.joins h'.groupConcats d
    (h'.reachable.wellFormed.table table' ht')
  refine ⟨_, _, by rw [compile_eq ht h.operation]; rfl, by rw [compile_eq ht' h'.operation]; rfl,
    fun hsql => ?_⟩
  have htokens : c.selectTokens d table = c'.selectTokens d table' := by
    rw [← hlex, ← hlex', ← lex_collapse, String.ofList_injective hsql, lex_collapse]
  have hshown := selectTokens_inj ht ht' htokens
  have hmulti : c.isMultiTable = c'.isMultiTable := by
    rw [Bool.eq_iff_iff, h.isMultiTable_iff, h'.isMultiTable_iff, hshown]
  exact ⟨hshown, hmulti, h.selectedReferences_eq h' hshown hmulti,
    fun hc => h.references_eq h' hshown hc (hmulti ▸ hc)⟩

def keywordSelect : Chain :=
  (start .select "or").run ""
    [.select "or, by", .filter .and "and" "=" (.int 1), .filter .or "or" "=" (.list []),
      .groupBy "by"]

def likewiseSelect : Chain :=
  (start .select "or").run ""
    [.groupBy "a.by", .select "or", .filter .and "and" "=" (.text "x"),
      .filter .or "b" "<" (.list []), .select "or.by"]

theorem keywords_shown :
    keywordSelect.Plain "" ∧ likewiseSelect.Plain "" ∧
      (∃ q q', keywordSelect.compile .mySql = .ok q ∧ likewiseSelect.compile .mySql = .ok q' ∧
        q.sql = "SELECT or, by FROM or WHERE and = :orandand OR (1=0) GROUP BY by" ∧
        q.sql = q'.sql) ∧
      keywordSelect.shown = likewiseSelect.shown ∧
      keywordSelect.selectedReferences = likewiseSelect.selectedReferences := by
  have hname : Identifier.table "" "or" = .ok "or" := rfl
  have h : keywordSelect.Plain "" := ⟨(Reachable.started .select hname).run _,
    by decide +kernel, by decide +kernel, by decide +kernel⟩
  have h' : likewiseSelect.Plain "" := ⟨(Reachable.started .select hname).run _,
    by decide +kernel, by decide +kernel, by decide +kernel⟩
  obtain ⟨q, q', hq, hq', hshown⟩ := shown_of_sql_eq h h' .mySql
  have hsql : (keywordSelect.compile .mySql).toOption.map Compiled.sql =
      some "SELECT or, by FROM or WHERE and = :orandand OR (1=0) GROUP BY by" := by
    decide +kernel
  have hsql' : (likewiseSelect.compile .mySql).toOption.map Compiled.sql =
      some "SELECT or, by FROM or WHERE and = :orandand OR (1=0) GROUP BY by" := by
    decide +kernel
  rw [hq] at hsql
  rw [hq'] at hsql'
  have hsame : q.sql = q'.sql := Option.some.inj (hsql.trans hsql'.symm)
  obtain ⟨hall, -, hselected, -⟩ := hshown hsame
  exact ⟨h, h', ⟨q, q', hq, hq', Option.some.inj hsql, hsame⟩, hall, hselected⟩

end Chain

end QueryLoom
