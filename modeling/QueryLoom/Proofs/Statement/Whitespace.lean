import QueryLoom.Proofs.Cache.Key
import QueryLoom.Proofs.Chain.Run
import QueryLoom.Proofs.Statement.Clauses
import QueryLoom.Proofs.Statement.Scan
import QueryLoom.Proofs.Text.Spacing

/-!
# White space in quoted regions

A statement is collapsed without regard to quotes, for the server and for the key of the cache. A
raw fragment is collapsed with it. So a quoted region of a fragment is in the statement as it was
given only if its white space is single spaces, and statements that differ inside of a region share
a key if the region differs in white space only.
-/

set_option autoImplicit false

namespace QueryLoom

open Placeholder

namespace Placeholder

def HasRegion (cs region : List Char) : Prop :=
  ∃ front back, Lexed cs (front ++ .quoted region :: back)

/-- A region begins with a quote, and ends with one unless the text ends in it. -/
theorem Lexed.region_ends {cs region : List Char} {front back : List Token}
    (h : Lexed cs (front ++ .quoted region :: back)) :
    region ≠ [] ∧ Text.Stops Text.isBlank region ∧
      (Text.Stops Text.isBlank region.reverse ∨ back.flatMap Token.text = []) := by
  have hquote : ∀ {q : Char}, IsQuote q → Text.isBlank q = false := by
    rintro q (rfl | rfl) <;> decide
  obtain ⟨rest, hrest⟩ := h.of_append
  cases hrest with
  | quoted hq =>
    refine ⟨by simp, Text.stops_cons (hquote hq) _, Or.inl ?_⟩
    simpa using Text.stops_cons (hquote hq) _
  | unclosed hq => exact ⟨by simp, Text.stops_cons (hquote hq) _, Or.inr rfl⟩

theorem Lexed.eq_append {cs region : List Char} {front back : List Token}
    (h : Lexed cs (front ++ .quoted region :: back)) :
    cs = front.flatMap Token.text ++ region ++ back.flatMap Token.text := by
  rw [← h.flatMap_text]
  simp [Token.text]

theorem Lexed.plain_append {cs rest : List Char} {ts : List Token} (hcs : IsPlain cs)
    (h : Lexed rest ts) : Lexed (cs ++ rest) (cs.map Token.other ++ ts) := by
  induction cs with
  | nil => exact h
  | cons c cs ih =>
    obtain ⟨⟨hsingle, hdouble, hcolon⟩, hmore⟩ := List.forall_mem_cons.mp hcs
    exact .other (fun hq => hq.elim hsingle hdouble) (fun hc => absurd hc hcolon) (ih hmore)

/-- Behind plain text, a text that ends with a closed region has the region. -/
theorem Lexed.plain_region (cs : List Char) (q : Char) (body : List Char) (hcs : IsPlain cs)
    (hq : IsQuote q) (hbody : q ∉ body) :
    Lexed (cs ++ q :: (body ++ [q]))
      (cs.map Token.other ++ .quoted (q :: (body ++ [q])) :: []) := by
  have henclosed : Enclosed q body := by
    induction body with
    | nil => exact .nil
    | cons c body ih =>
      rw [List.mem_cons, not_or] at hbody
      exact .other (Ne.symm hbody.1) (ih hbody.2)
  exact .plain_append hcs (.quoted hq henclosed (by simp) .nil)

/-- A region of a text without white space at its ends has none at its own. -/
theorem HasRegion.trimmed {cs region : List Char} (h : HasRegion cs region)
    (ht : Text.Trimmed cs) : region <:+: cs ∧ Text.Trimmed region := by
  obtain ⟨front, back, hlexed⟩ := h
  obtain ⟨hne, hstart, hstop⟩ := hlexed.region_ends
  have hcs := hlexed.eq_append
  refine ⟨⟨_, _, hcs.symm⟩, hne, hstart, hstop.elim id fun hback => ?_⟩
  have hend := ht.stop
  rw [hcs, hback, List.append_nil, List.reverse_append] at hend
  exact Text.stops_of_append (by simpa using hne) hend

end Placeholder

inductive Verb.AddsFragment (tablePrefix : String) : Verb → String → Prop
  | join {kind : JoinKind} {table condition t f : String}
      (ht : Identifier.table tablePrefix table = .ok t)
      (hf : Identifier.rawFragment "join condition" condition = .ok f) :
      AddsFragment tablePrefix (.join kind table condition) f
  | groupConcat {expr label f l : String}
      (hf : Identifier.rawFragment "group_concat expression" expr = .ok f)
      (hl : Identifier.column label = .ok l) :
      AddsFragment tablePrefix (.groupConcat expr label) f

theorem Identifier.rawFragment_trimmed {kind s f : String} (h : rawFragment kind s = .ok f) :
    Text.Trimmed f.toList := by
  have hne := (rawFragment_ok h).1
  simp only [rawFragment] at h
  split at h
  · cases h
  · split at h
    · cases h
    · cases h
      rw [String.toList_ofList] at hne ⊢
      exact Text.trim_trimmed hne

theorem Verb.AddsFragment.trimmed {tablePrefix f : String} {v : Verb}
    (h : v.AddsFragment tablePrefix f) : Text.Trimmed f.toList := by
  cases h with
  | join _ hf => exact Identifier.rawFragment_trimmed hf
  | groupConcat hf => exact Identifier.rawFragment_trimmed hf

namespace Chain

variable {tablePrefix f : String} {c : Chain}

def fragments (c : Chain) : List String :=
  c.joins.map Join.condition ++ c.groupConcats.map GroupConcat.expr

theorem Step.fragments {c' : Chain} (h : Step tablePrefix c c') (hf : f ∈ c.fragments) :
    f ∈ c'.fragments := by
  cases h with
  | joined =>
    rw [joining_eq]
    simp only [Chain.fragments, List.map_append, List.mem_append] at hf ⊢
    exact hf.imp_left Or.inl
  | concatenated =>
    simp only [Chain.fragments, List.map_append, List.mem_append] at hf ⊢
    exact hf.imp_right Or.inl
  | selected =>
    rw [selecting_eq]
    exact hf
  | _ => exact hf

theorem after_join {kind : JoinKind} {table condition t : String}
    (ht : Identifier.table tablePrefix table = .ok t)
    (hf : Identifier.rawFragment "join condition" condition = .ok f) (c : Chain) :
    (Verb.join kind table condition).after tablePrefix c = c.joining ⟨kind, t, f⟩ := by
  simp [Verb.after, Verb.apply, addJoin, Attempt.outcome_bind, ht, hf, joining]

theorem after_fragment {v : Verb} (h : v.AddsFragment tablePrefix f) (c : Chain) :
    f ∈ (v.after tablePrefix c).fragments := by
  cases h with
  | join ht hf =>
    rw [after_join ht hf, joining_eq]
    simp [fragments]
  | groupConcat hf hl =>
    simp [Verb.after, Verb.apply, addGroupConcat, Attempt.outcome_bind, hf, hl, fragments]

theorem run_fragment {verbs : List Verb} {v : Verb} (hv : v ∈ verbs)
    (h : v.AddsFragment tablePrefix f) (c : Chain) : f ∈ (c.run tablePrefix verbs).fragments := by
  induction verbs generalizing c with
  | nil => cases hv
  | cons w verbs ih =>
    rcases List.mem_cons.mp hv with rfl | hv
    · exact run_invariant (I := fun c => f ∈ c.fragments) Step.fragments (after_fragment h c) verbs
    · exact ih hv (w.after tablePrefix c)

/-! ## Where the fragments stand -/

theorem infix_between (s t u : String) : t.toList <:+: (s ++ t ++ u).toList :=
  ⟨s.toList, u.toList, by rw [String.toList_append, String.toList_append]⟩

theorem infix_append (s t : String) : s.toList <:+: (s ++ t).toList := by
  rw [String.toList_append]
  exact (List.prefix_append _ _).isInfix

theorem infix_intercalate {sep s : String} {ss : List String} (h : s ∈ ss) :
    s.toList <:+: (sep.intercalate ss).toList := by
  rw [String.toList_intercalate]
  exact Text.infix_intercalate_of_mem (List.mem_map_of_mem h)

theorem infix_groupConcat (d : Dialect) (expr label : String) :
    expr.toList <:+: (d.groupConcat expr label).toList := by
  cases d with
  | mySql => exact (infix_between _ _ _).trans (infix_append _ _)
  | postgres => exact (infix_between _ _ _).trans (infix_append _ _)

theorem infix_of_fragment (h : f ∈ c.fragments) (d : Dialect) (table : String) :
    f.toList <:+: (c.selectStatement d table).toList := by
  unfold selectStatement
  simp only [fragments, List.mem_append, List.mem_map] at h
  rcases h with ⟨j, hj, rfl⟩ | ⟨g, hg, rfl⟩
  · have hterm : j.condition.toList <:+: (joinTerm j).toList := by
      rw [joinTerm, String.toList_append]
      exact (List.suffix_append _ _).isInfix
    have hmem : joinTerm j ∈ c.orderedJoins.map joinTerm :=
      List.mem_map.mpr ⟨j, mem_orderedJoins.mpr hj, rfl⟩
    have hclause : (joinTerm j).toList <:+: c.joinClause.toList := infix_intercalate hmem
    exact (hterm.trans hclause).trans (infix_intercalate (by simp))
  · have hmem : d.groupConcat g.expr g.label ∈
        c.groupConcats.map fun g => d.groupConcat g.expr g.label := List.mem_map.mpr ⟨g, hg, rfl⟩
    have hlist : (d.groupConcat g.expr g.label).toList <:+: (c.selectList d).toList := by
      unfold selectList
      exact infix_intercalate (List.mem_append_right _ hmem)
    have hhead : (c.selectList d).toList <:+:
        ("SELECT " ++ c.selectList d ++ " FROM " ++ table).toList :=
      (infix_between _ _ _).trans (infix_append _ _)
    exact (((infix_groupConcat d g.expr g.label).trans hlist).trans hhead).trans
      (infix_intercalate (by simp))

end Chain

/-- The cache hashes the same text for two statements that differ in one region if the region is
the same in both but for white space, and the values count as the same. -/
theorem Cache.keyText_region_iff {sql sql' : String} {front back : List Token}
    {region region' : List Char} (h : Lexed sql.toList (front ++ .quoted region :: back))
    (h' : Lexed sql'.toList (front ++ .quoted region' :: back)) (b b' : Bindings) :
    keyText sql b = keyText sql' b' ↔
      Text.collapse region = Text.collapse region' ∧ b.blur = b'.blur := by
  obtain ⟨before, behind, haround⟩ :=
    Text.collapse_around (front.flatMap Token.text) (back.flatMap Token.text)
  obtain ⟨hne, hstart, hstop⟩ := h.region_ends
  obtain ⟨hne', hstart', hstop'⟩ := h'.region_ends
  rw [keyText_eq_iff, h.eq_append, h'.eq_append, haround region hne hstart hstop,
    haround region' hne' hstart' hstop', List.append_left_inj, List.append_right_inj]

namespace Chain

/-- A SELECT chain compiles to its statement with the white space collapsed. Each fragment that was
let through stands in it collapsed too, and a quoted region of a fragment is in it byte for byte if
and only if single spaces are all the white space of the region. For the cache, two statements that
differ in one quoted region are told apart if and only if the collapsed regions differ, where the
values are the same but for doubles that are not finite, which count as NULL. -/
theorem run_regions (tablePrefix table : String) (verbs : List Verb) (d : Dialect) :
    let c := (start .select table).run tablePrefix verbs
    (∃ q, c.compile d = .ok q ∧
      q.sql.toList = Text.collapse (c.selectStatement d table).toList ∧
      ∀ v ∈ verbs, ∀ f, v.AddsFragment tablePrefix f →
        f.toList <:+: (c.selectStatement d table).toList ∧
        Text.collapse f.toList <:+: q.sql.toList ∧
        ∀ region, HasRegion f.toList region →
          (region <:+: q.sql.toList ↔ Text.SingleSpaced region)) ∧
    ∀ (sql sql' : String) (front back : List Token) (region region' : List Char),
      Lexed sql.toList (front ++ .quoted region :: back) →
      Lexed sql'.toList (front ++ .quoted region' :: back) →
      ∀ b b' : Bindings, Cache.keyText sql b = Cache.keyText sql' b' ↔
        Text.collapse region = Text.collapse region' ∧ b.blur = b'.blur := by
  intro c
  obtain ⟨ht, hop⟩ := run_start_head tablePrefix .select table verbs
  refine ⟨⟨_, compile_eq ht hop d, String.toList_ofList, fun v hv f hf => ?_⟩,
    fun _ _ _ _ _ _ h h' => Cache.keyText_region_iff h h'⟩
  have hin := infix_of_fragment (run_fragment hv hf (start .select table)) d table
  rw [String.toList_ofList]
  refine ⟨hin, hf.trimmed.infix_collapse hin, fun region hregion => ?_⟩
  obtain ⟨hstretch, htrimmed⟩ := hregion.trimmed hf.trimmed
  exact htrimmed.infix_collapse_iff (hstretch.trans hin)

/-! ## A name with two spaces -/

def rolesVerb : Verb := .join .inner "roles" "roles.name = 'a  b'"

/-- The name is not in the statement, and to the cache it is the name with one space less. -/
theorem region_narrowed :
    rolesVerb.AddsFragment "" "roles.name = 'a  b'" ∧
      HasRegion "roles.name = 'a  b'".toList "'a  b'".toList ∧
      (∃ q, ((start .select "users").run "" [rolesVerb]).compile .mySql = .ok q ∧
        q.sql = "SELECT * FROM users INNER JOIN roles ON roles.name = 'a b'" ∧
        ¬ "'a  b'".toList <:+: q.sql.toList) ∧
      Cache.keyText "SELECT 'a  b'" .empty = Cache.keyText "SELECT 'a b'" .empty := by
  have htable : Identifier.table "" "roles" = .ok "roles" := rfl
  have hfragment : Identifier.rawFragment "join condition" "roles.name = 'a  b'" =
      .ok "roles.name = 'a  b'" := rfl
  have hrun : (start .select "users").run "" [rolesVerb] =
      (start .select "users").joining ⟨.inner, "roles", "roles.name = 'a  b'"⟩ :=
    after_join htable hfragment _
  have hadds : rolesVerb.AddsFragment "" "roles.name = 'a  b'" := .join htable hfragment
  have hwide : HasRegion "roles.name = 'a  b'".toList "'a  b'".toList :=
    ⟨_, _, Lexed.plain_region "roles.name = ".toList '\'' "a  b".toList (by decide) (Or.inl rfl)
      (by decide)⟩
  obtain ⟨⟨q, hq, hsql, hfragments⟩, hkeys⟩ := run_regions "" "users" [rolesVerb] .mySql
  refine ⟨hadds, hwide, ⟨q, hq, ?_, fun hin => ?_⟩, ?_⟩
  · rw [← String.toList_inj, hsql, hrun]
    decide +kernel
  · have hspaced := ((hfragments rolesVerb (by simp) _ hadds).2.2 _ hwide).mp hin
    exact absurd ((hspaced.2.2.1 rfl).2 ' ' rfl) (by decide)
  · refine (hkeys "SELECT 'a  b'" "SELECT 'a b'" _ _ _ _
      (Lexed.plain_region "SELECT ".toList '\'' "a  b".toList (by decide) (Or.inl rfl) (by decide))
      (Lexed.plain_region "SELECT ".toList '\'' "a b".toList (by decide) (Or.inl rfl) (by decide))
      .empty .empty).mpr ⟨?_, rfl⟩
    decide +kernel

end Chain

end QueryLoom
