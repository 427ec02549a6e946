import QueryLoom.Proofs.Statement.Rendering

/-!
# Numbered statements of chains

What a server with numbered parameters gets of a chain: the template of the chain with the numbers
from one on in its holes, and in this order the values of the payload and of the filters. The
template is that of the outlined verbs, so the values themselves do not show in the text.
-/

set_option autoImplicit false

namespace QueryLoom

open Placeholder

namespace Template

theorem isPlain_of_isSafe {s : String} (h : IsSafe s) : IsPlain s.toList := by
  intro c hc
  have hsafe := h c hc
  refine ⟨?_, ?_, ?_⟩ <;> rintro rfl <;> exact absurd hsafe (by decide)

theorem neutral_composable : Composable Neutral where
  safe _ h := neutral_of_isPlain (isPlain_of_isSafe h)
  append _ _ := Neutral.append
  selectStar := neutral_of_isPlain (by decide)
  returningStar := neutral_of_isPlain (by decide)

end Template

namespace Chain

open Template

structure PlainFragments (c : Chain) : Prop where
  conditions : ∀ j ∈ c.joins, IsPlain j.condition.toList
  groups : ∀ g ∈ c.groupConcats, IsPlain g.expr.toList

theorem PlainFragments.conditionsHave {c : Chain} (h : c.PlainFragments) :
    c.ConditionsHave Neutral := by
  intro j hj
  exact (neutral_of_isPlain (by decide)).append (neutral_of_isPlain (h.conditions j hj))

theorem neutral_cast : Neutral "::" := fun _ ht => .cast ht

theorem neutral_quotedComma : Neutral "','" := fun _ ht => .quotedComma ht

theorem PlainFragments.groupsHave {c : Chain} (h : c.PlainFragments) (hc : c.WellFormed)
    (d : Dialect) : c.GroupsHave d Neutral := by
  intro g hg
  have hexpr : Neutral g.expr := neutral_of_isPlain (h.groups g hg)
  have hlabel : Neutral g.label := neutral_composable.safe _ (hc.groupConcats g hg).2.isSafe
  have hplain : ∀ s, IsPlain s.toList → Neutral s := fun s => neutral_of_isPlain
  cases d with
  | mySql =>
    exact (((hplain _ (by decide)).append hexpr).append (hplain ") AS " (by decide))).append hlabel
  | postgres =>
    have hmiddle : Neutral (")" ++ "::" ++ "text, " ++ "','" ++ ") AS ") :=
      ((((hplain _ (by decide)).append neutral_cast).append (hplain _ (by decide))).append
        neutral_quotedComma).append (hplain _ (by decide))
    exact (((hplain _ (by decide)).append hexpr).append hmiddle).append hlabel

/-! ## Templates of chains can be scanned -/

theorem comparisonTemplate_closed {reference : String} (h : IsSafe reference) (op : Operator) :
    Closed (comparisonTemplate reference op) := by
  have hP := neutral_composable
  refine Neutral.closed_append ?_ closed_hole
  exact ((hP.safe _ h).append (hP.safe _ (by decide))).append (hP.safe _ op.text_isSafe) |>.append
    (hP.safe _ (by decide))

theorem filterTemplate_closed {c : Chain} {f : Filter}
    (h : Reference.IsNamed ⟨f.table, f.column⟩) : Closed (c.filterTemplate f) := by
  have hP := neutral_composable
  have href : IsSafe (c.qualify ⟨f.table, f.column⟩) := qualify_isSafe h
  unfold filterTemplate
  cases f.operand with
  | key k => exact comparisonTemplate_closed href f.operator
  | null =>
    exact (((hP.safe _ href).append (hP.safe _ (by decide))).append
      (hP.safe _ f.operator.text_isSafe)).append (hP.safe " NULL" (by decide)) |>.closed
  | keys ks =>
    cases ks with
    | nil => exact (hP.safe "(1=0)" (by decide)).closed
    | cons k ks =>
      have hclosed : Closed ((lit " OR ").intercalate ((k :: ks).map fun _ =>
          comparisonTemplate (c.qualify ⟨f.table, f.column⟩) f.operator)) := by
        refine closed_intercalate (hP.safe _ (by decide)) (by decide) fun t ht => ?_
        obtain ⟨_, -, rfl⟩ := List.mem_map.mp ht
        exact comparisonTemplate_closed href f.operator
      exact Closed.append ((hP.safe "(" (by decide)).closed_append hclosed)
        (hP.safe ")" (by decide)).closed fun t _ => guarded_lit_append (by decide) t

theorem moreTemplates_guarded (c : Chain) (fs : List Filter) {t : Template} (ht : t.Guarded) :
    (c.moreTemplates fs ++ t).Guarded := by
  cases fs with
  | nil => exact ht
  | cons f fs =>
    rw [moreTemplates, List.append_assoc, String.append_assoc]
    exact guarded_lit_append (by simp [guards]; decide) _

theorem selectTail_guards {c : Chain} {d : Dialect} : guards (c.selectTail d) = true := by
  simp [guards, selectTail]
  decide

theorem moreTemplates_closed {c : Chain} {fs : List Filter}
    (h : ∀ f ∈ fs, Reference.IsNamed ⟨f.table, f.column⟩) : Closed (c.moreTemplates fs) := by
  have hP := neutral_composable
  induction fs with
  | nil => exact fun _ ht _ => ht
  | cons f fs ih =>
    have hrest := ih fun g hg => h g (List.mem_cons_of_mem _ hg)
    have hword : Neutral (" " ++ f.connective.keyword ++ " ") :=
      ((hP.safe _ (by decide)).append (hP.safe _ f.connective.keyword_isSafe)).append
        (hP.safe _ (by decide))
    exact hword.closed_append ((filterTemplate_closed (h f (by simp))).append hrest
      fun t => moreTemplates_guarded c fs)

theorem whereTemplate_closed {c : Chain} (h : c.WellFormed) : Closed c.whereTemplate := by
  have hP := neutral_composable
  have hnamed : ∀ f ∈ c.filters, Reference.IsNamed ⟨f.table, f.column⟩ := fun f hf =>
    (h.filters f hf).1
  unfold whereTemplate
  cases hc : c.filters with
  | nil => exact fun _ ht _ => ht
  | cons f fs =>
    rw [hc] at hnamed
    exact (hP.safe "WHERE " (by decide)).closed_append
      ((filterTemplate_closed (hnamed f (by simp))).append
        (moreTemplates_closed fun g hg => hnamed g (List.mem_cons_of_mem _ hg))
        fun t => moreTemplates_guarded c fs)

theorem template_readable {c : Chain} (h : c.WellFormed) (hplain : c.PlainFragments) (d : Dialect)
    {table : String} (ht : IsIdentifier table) (op : Operation) :
    (c.template d table op).Readable := by
  have hP := neutral_composable
  have hwhere := whereTemplate_closed h
  cases op with
  | select =>
    have hhead := selectHead_has hP h (hplain.groupsHave h d) hplain.conditionsHave ht
    exact ((hhead.closed_append hwhere).append (selectTail_has hP h d).closed
      fun t _ => guarded_lit_append selectTail_guards t).readable
  | insert =>
    have hvalues : Closed ((lit ", ").intercalate (c.payload.map fun _ => [none])) := by
      refine closed_intercalate (hP.safe _ (by decide)) (by decide) fun t ht => ?_
      obtain ⟨_, -, rfl⟩ := List.mem_map.mp ht
      exact closed_hole
    exact (((insertHead_has hP h ht).closed_append hvalues).append (insertTail_has hP d).closed
      fun t _ => guarded_lit_append (by cases d <;> decide) t).readable
  | update =>
    have hassign : Closed ((lit ", ").intercalate
        (c.payload.map fun e => lit (e.1 ++ " = ") ++ [none])) := by
      refine closed_intercalate (hP.safe _ (by decide)) (by decide) fun t ht => ?_
      obtain ⟨e, he, rfl⟩ := List.mem_map.mp ht
      exact ((hP.safe _ (h.payload e he).isSafe).append (hP.safe _ (by decide))).closed_append
        closed_hole
    have hhead : Neutral ("UPDATE " ++ table ++ " SET ") :=
      ((hP.safe _ (by decide)).append (hP.safe _ ht.isSafe)).append (hP.safe _ (by decide))
    refine ((hhead.closed_append hassign).append
      ((hP.safe " " (by decide)).closed_append hwhere) fun t _ => ?_).readable
    rw [List.append_assoc]
    exact guarded_lit_append (by decide) _
  | delete =>
    have hhead : Neutral ("DELETE FROM " ++ table ++ " ") :=
      ((hP.safe _ (by decide)).append (hP.safe _ ht.isSafe)).append (hP.safe _ (by decide))
    exact (hhead.closed_append hwhere).readable

/-! ## The values of a statement -/

def statementValues (c : Chain) (values : List Value) : Operation → List Value
  | .select => values
  | .insert => c.payload.map Prod.snd
  | .update => c.payload.map Prod.snd ++ values
  | .delete => values

/-- No assigned column is called like a key of a filter. -/
def PayloadDisjoint (c : Chain) : Prop := ∀ e ∈ c.payload, e.1 ∉ c.filterKeys

theorem statementKeys_isName {c : Chain} (h : c.WellFormed) (op : Operation) :
    ∀ k ∈ c.statementKeys op, IsName k := by
  have hpayload : ∀ k ∈ c.payload.map Prod.fst, IsName k := by
    intro k hk
    obtain ⟨e, he, rfl⟩ := List.mem_map.mp hk
    exact (h.payload e he).isName
  have hfilters : ∀ k ∈ c.filterKeys, IsName k := by
    intro k hk
    obtain ⟨f, hf, hkf⟩ := List.mem_flatMap.mp hk
    exact ((h.filters f hf).2 k hkf).isName
  cases op with
  | select => exact hfilters
  | insert => exact hpayload
  | update => exact fun k hk => (List.mem_append.mp hk).elim (hpayload k) (hfilters k)
  | delete => exact hfilters

theorem statementKeys_nodup {c : Chain} {values : List Value} (h : c.WellFormed)
    (hkeyed : c.Keyed values) {op : Operation} (hd : op = .update → c.PayloadDisjoint) :
    (c.statementKeys op).Nodup := by
  cases op with
  | select => exact hkeyed.distinct
  | insert => exact h.payloadDistinct
  | update =>
    refine List.nodup_append.mpr ⟨h.payloadDistinct, hkeyed.distinct, fun a ha b hb hab => ?_⟩
    obtain ⟨e, he, rfl⟩ := List.mem_map.mp ha
    exact hd rfl e he (hab ▸ hb)
  | delete => exact hkeyed.distinct

/-- Every key of a statement is bound to the value that stands for it. -/
theorem statementKeys_values {c : Chain} {values : List Value} (h : c.WellFormed)
    (hkeyed : c.Keyed values) {op : Operation} (hd : op = .update → c.PayloadDisjoint) :
    (c.statementKeys op).map (c.compiledBindings op).get? =
      (c.statementValues values op).map some := by
  have hpayload : (c.payload.map Prod.fst).map (c.bindings.extend ⟨c.payload⟩).get? =
      (c.payload.map Prod.snd).map some := by
    rw [List.map_map, List.map_map]
    exact List.map_congr_left fun e he => Bindings.get?_extend_of_mem _ h.payloadDistinct he
  cases op with
  | select => exact hkeyed.values
  | insert => exact hpayload
  | update =>
    have hfilters : c.filterKeys.map (c.bindings.extend ⟨c.payload⟩).get? = values.map some := by
      rw [← hkeyed.values]
      refine List.map_congr_left fun k hk => Bindings.get?_extend_of_not_mem _ fun hmem => ?_
      obtain ⟨e, he, rfl⟩ := List.mem_map.mp hmem
      exact hd rfl e he hk
    simp only [statementKeys, statementValues, compiledBindings, List.map_append, hpayload,
      hfilters]
  | delete => exact hkeyed.values

/-- Every chain that verbs can build compiles, if it has the values that a write needs, to a
template filled with its keys, and the scanner finds these keys. Numbering the placeholders
succeeds, fills the same template with the numbers, and gives the values of the payload and of the
accepted filters in order. The template comes from the outlines of the verbs alone. -/
theorem run_toPositional {tablePrefix name table : String}
    (hname : Identifier.table tablePrefix name = .ok table) (op : Operation) (verbs : List Verb)
    (d : Dialect) (hplain : ((start op table).run tablePrefix verbs).PlainFragments)
    (hpayload : op = .insert ∨ op = .update →
      ((start op table).run tablePrefix verbs).payload ≠ [])
    (hdisjoint : op = .update → ((start op table).run tablePrefix verbs).PayloadDisjoint) :
    let c := (start op table).run tablePrefix verbs
    let t := (((start op table).run tablePrefix (verbs.map Verb.outline)).template d table
      op).collapse
    ∃ q, c.compile d = .ok q ∧ q.sql = String.ofList (t.named (c.statementKeys op)) ∧
      (c.statementKeys op).length = t.holes ∧
      (lex q.sql.toList).filterMap Token.name? = c.statementKeys op ∧
      toPositional q.sql q.bindings =
        .ok ⟨String.ofList t.numbered,
          c.statementValues (acceptedValues tablePrefix (start op table) verbs) op⟩ := by
  intro c t
  have htable := Identifier.table_ok hname
  have hc : c.WellFormed := run_wellFormed (start_wellFormed htable) verbs
  have hkeyed : c.Keyed (acceptedValues tablePrefix (start op table) verbs) :=
    run_keyed tablePrefix (start_keyed op table) verbs
  have hhead := run_start_head tablePrefix op table verbs
  obtain ⟨s, hs⟩ := statement_ok c d table hpayload
  have htemplate : t = (c.template d table op).collapse := by
    have hout := run_outline tablePrefix (c := start op table) rfl verbs
    exact congrArg Template.collapse (by rw [← template_outline, hout, template_outline])
  have hrenders := template_renders hs
  have hnames := statementKeys_isName hc op
  have hlength : (c.statementKeys op).length = t.holes := by
    rw [htemplate, holes_collapse, hrenders.1]
  have hread : t.Readable := by
    rw [htemplate]
    exact readable_collapse (template_readable hc hplain d htable op)
  have hwords : ∀ text ∈ (c.statementKeys op).map fun k => ':' :: k.toList, IsWord text := by
    intro text htext
    obtain ⟨k, hk, rfl⟩ := List.mem_map.mp htext
    exact isWord_of_isName (hnames k hk)
  have hsql : t.named (c.statementKeys op) = Text.collapse s.toList := by
    rw [htemplate, named, fill_collapse _ hwords (by simp [hrenders.1]), ← hrenders.2, named]
  refine ⟨_, by rw [compile_eq hhead.1 hhead.2, hs]; rfl, by rw [hsql], hlength, ?_, ?_⟩
  · simp only [String.toList_ofList, ← hsql]
    exact (lex_named hread hlength hnames []).1
  · simp only [← hsql]
    exact toPositional_named hread hlength hnames (statementKeys_nodup hc hkeyed hdisjoint)
      (statementKeys_values hc hkeyed hdisjoint)

/-- The second filter has an operator that does not exist, and the third one binds nothing. -/
def renameVerbs : List Verb :=
  [.filter .and "id" "=" (.list [.int 7, .int 8]), .filter .or "name" "between" (.text "a"),
    .filter .or "email" "=" .null, .assign [("Name", .text ":x"), ("id", .int 0)]]

theorem rename_toPositional :
    ∃ q, ((start .update "app_users").run "app_" renameVerbs).compile .postgres = .ok q ∧
      toPositional q.sql q.bindings =
        .ok ⟨"UPDATE app_users SET name = $1 WHERE (id = $2 OR id = $3) OR email IS NULL",
          [.text ":x", .int 7, .int 8]⟩ := by
  have hname : Identifier.table "app_" "Users" = .ok "app_users" := rfl
  have hdisjoint : ((start .update "app_users").run "app_" renameVerbs).PayloadDisjoint := by
    unfold PayloadDisjoint
    decide
  obtain ⟨q, hq, -, -, -, hpositional⟩ := run_toPositional hname .update renameVerbs .postgres
    ⟨by decide, by decide⟩ (fun _ => by decide) (fun _ => hdisjoint)
  exact ⟨q, hq, hpositional⟩

end Chain

end QueryLoom
