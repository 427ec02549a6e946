import QueryLoom.Proofs.Chain.Outline
import QueryLoom.Proofs.Chain.Values
import QueryLoom.Proofs.Statement.Clauses
import QueryLoom.Proofs.Statement.Scan

/-!
# The template of a chain

Each chain has a template: its statement without the keys. Filled with the keys in the order of
the filters, behind those of the payload, it is the statement. It does not change when a chain is
replaced by its outline, and it can be scanned if the raw fragments are plain.
-/

set_option autoImplicit false

namespace QueryLoom

namespace Template

/-- The template becomes this text with these keys. -/
def Renders (t : Template) (ks : List String) (s : String) : Prop :=
  ks.length = t.holes ∧ t.named ks = s.toList

theorem renders_lit (s : String) : (lit s).Renders [] s := by
  simp [Renders, named]

theorem renders_hole (k : String) : Renders [none] [k] (":" ++ k) := by
  simp [Renders, named, fill, holes]

theorem Renders.append {t u : Template} {ks js : List String} {s r : String}
    (ht : t.Renders ks s) (hu : u.Renders js r) : (t ++ u).Renders (ks ++ js) (s ++ r) := by
  refine ⟨by simp [ht.1, hu.1], ?_⟩
  rw [named, List.map_append, fill_append _ _ _ (by simp [ht.1]), String.toList_append]
  exact congrArg₂ _ ht.2 hu.2

theorem Renders.lit_append {t : Template} {ks : List String} {s : String} (r : String)
    (ht : t.Renders ks s) : (lit r ++ t).Renders ks (r ++ s) :=
  (renders_lit r).append ht

theorem Renders.append_lit {t : Template} {ks : List String} {s : String} (r : String)
    (ht : t.Renders ks s) : (t ++ lit r).Renders ks (s ++ r) := by
  simpa using ht.append (renders_lit r)

theorem renders_intercalate {α : Type} (sep : String) (as : List α) (g : α → List String)
    {f : α → Template} {s : α → String} (h : ∀ a ∈ as, (f a).Renders (g a) (s a)) :
    Renders ((lit sep).intercalate (as.map f)) (as.flatMap g) (sep.intercalate (as.map s)) := by
  induction as with
  | nil => simp [Renders, named, fill, holes]
  | cons a as ih =>
    have ha := h a (by simp)
    have hrest := ih fun b hb => h b (List.mem_cons_of_mem _ hb)
    cases as with
    | nil => simpa using ha
    | cons b as =>
      simp only [List.map_cons, List.intercalate_cons_cons, String.intercalate_cons_cons] at hrest ⊢
      exact (ha.append_lit sep).append hrest

end Template

namespace Chain

open Template

def comparisonTemplate (reference : String) (op : Operator) : Template :=
  lit (reference ++ " " ++ op.text ++ " ") ++ [none]

def filterTemplate (c : Chain) (f : Filter) : Template :=
  let reference := c.qualify ⟨f.table, f.column⟩
  match f.operand with
  | .key _ => comparisonTemplate reference f.operator
  | .null => lit (reference ++ " " ++ f.operator.text ++ " NULL")
  | .keys [] => lit "(1=0)"
  | .keys ks =>
    lit "(" ++ (lit " OR ").intercalate (ks.map fun _ => comparisonTemplate reference f.operator) ++
      lit ")"

def moreTemplates (c : Chain) : List Filter → Template
  | [] => []
  | f :: fs =>
    lit (" " ++ f.connective.keyword ++ " ") ++ (c.filterTemplate f ++ c.moreTemplates fs)

def whereTemplate (c : Chain) : Template :=
  match c.filters with
  | [] => []
  | f :: fs => lit "WHERE " ++ (c.filterTemplate f ++ c.moreTemplates fs)

def template (c : Chain) (d : Dialect) (table : String) : Operation → Template
  | .select => lit (c.selectHead d table) ++ c.whereTemplate ++ lit (c.selectTail d)
  | .insert =>
    lit (c.insertHead table) ++ (lit ", ").intercalate (c.payload.map fun _ => [none]) ++
      lit (insertTail d)
  | .update =>
    lit ("UPDATE " ++ table ++ " SET ") ++
        (lit ", ").intercalate (c.payload.map fun e => lit (e.1 ++ " = ") ++ [none]) ++
      (lit " " ++ c.whereTemplate)
  | .delete => lit ("DELETE FROM " ++ table ++ " ") ++ c.whereTemplate

def statementKeys (c : Chain) : Operation → List String
  | .select => c.filterKeys
  | .insert => c.payload.map Prod.fst
  | .update => c.payload.map Prod.fst ++ c.filterKeys
  | .delete => c.filterKeys

/-! ## Rendering -/

theorem comparison_renders (reference : String) (op : Operator) (k : String) :
    (comparisonTemplate reference op).Renders [k] (comparison reference op k) := by
  have h := (renders_hole k).lit_append (reference ++ " " ++ op.text ++ " ")
  have hcolon : (" " : String) ++ (":" ++ k) = " :" ++ k := by
    rw [← String.append_assoc]
    rfl
  have hsplit : reference ++ " " ++ op.text ++ " " ++ (":" ++ k) =
      reference ++ " " ++ op.text ++ (" :" ++ k) := by
    rw [← hcolon, String.append_assoc, String.append_assoc, String.append_assoc]
  rw [hsplit, ← String.append_assoc] at h
  exact h

theorem filterTemplate_renders (c : Chain) (f : Filter) :
    (c.filterTemplate f).Renders f.operand.keyList (c.filterTerm f) := by
  unfold filterTemplate filterTerm Operand.keyList
  cases f.operand with
  | key k => exact comparison_renders _ f.operator k
  | null => exact renders_lit _
  | keys ks =>
    cases ks with
    | nil => exact renders_lit _
    | cons k ks =>
      have h := renders_intercalate " OR " (k :: ks) (fun k => [k])
        fun k _ => comparison_renders (c.qualify ⟨f.table, f.column⟩) f.operator k
      simpa using (h.lit_append "(").append_lit ")"

theorem moreTemplates_renders (c : Chain) (fs : List Filter) :
    (c.moreTemplates fs).Renders (fs.flatMap fun f => f.operand.keyList) (c.moreTerms fs) := by
  induction fs with
  | nil => exact renders_lit ""
  | cons f fs ih =>
    have h := ((c.filterTemplate_renders f).append ih).lit_append
      (" " ++ f.connective.keyword ++ " ")
    rwa [← String.append_assoc] at h

theorem whereTemplate_renders (c : Chain) :
    c.whereTemplate.Renders c.filterKeys c.whereClause := by
  unfold whereTemplate whereClause filterKeys
  cases c.filters with
  | nil => exact renders_lit ""
  | cons f fs =>
    have h := ((c.filterTemplate_renders f).append (c.moreTemplates_renders fs)).lit_append "WHERE "
    rwa [← String.append_assoc] at h

/-- Filled with its keys, the template of a chain is its statement. -/
theorem template_renders {c : Chain} {d : Dialect} {table s : String} {op : Operation}
    (h : c.statement d table op = .ok s) :
    (c.template d table op).Renders (c.statementKeys op) s := by
  have hwhere := c.whereTemplate_renders
  obtain ⟨-, rfl⟩ := statement_eq_ok_iff.mp h
  cases op with
  | select =>
    rw [statementText, selectStatement_eq]
    exact (hwhere.lit_append _).append_lit _
  | insert =>
    have hvalues := renders_intercalate ", " c.payload (fun e => [e.1])
      fun e _ => renders_hole e.1
    rw [statementText, insertStatement_eq, List.map_map]
    have hall := (hvalues.lit_append (c.insertHead table)).append_lit (insertTail d)
    rwa [← List.map_eq_flatMap] at hall
  | update =>
    have hassign := renders_intercalate ", " c.payload (fun e => [e.1])
      (s := fun e => assignment e.1) fun e _ => (renders_hole e.1).lit_append (e.1 ++ " = ")
    have hall := (hassign.lit_append ("UPDATE " ++ table ++ " SET ")).append
      (hwhere.lit_append " ")
    rw [← List.map_eq_flatMap, ← String.append_assoc] at hall
    exact hall
  | delete =>
    exact hwhere.lit_append _

/-! ## Outlines -/

theorem filterTemplate_outline (c : Chain) (f : Filter) :
    c.outline.filterTemplate f.outline = c.filterTemplate f := by
  obtain ⟨t, connective, column, op, o⟩ := f
  cases o with
  | keys ks =>
    cases ks with
    | nil => rfl
    | cons k ks =>
      simp only [filterTemplate, Filter.outline, Operand.outline, List.map_cons, List.map_map]
      rfl
  | _ => rfl

theorem moreTemplates_outline (c : Chain) (fs : List Filter) :
    c.outline.moreTemplates (fs.map Filter.outline) = c.moreTemplates fs := by
  induction fs with
  | nil => rfl
  | cons f fs ih =>
    rw [List.map_cons, moreTemplates, moreTemplates, filterTemplate_outline, ih]
    rfl

theorem whereTemplate_outline (c : Chain) : c.outline.whereTemplate = c.whereTemplate := by
  unfold whereTemplate
  rw [show c.outline.filters = c.filters.map Filter.outline from rfl]
  cases c.filters with
  | nil => rfl
  | cons f fs =>
    simp only [List.map_cons, filterTemplate_outline, moreTemplates_outline]

theorem insertHead_outline (c : Chain) (table : String) :
    c.outline.insertHead table = c.insertHead table := by
  have hcolumns : c.outline.payload.map Prod.fst = c.payload.map Prod.fst := by
    simp [outline]
  exact congrArg (fun columns =>
    "INSERT INTO " ++ table ++ " (" ++ ", ".intercalate columns ++ ") VALUES (") hcolumns

/-- Keys and values play no part in the template. -/
theorem template_outline (c : Chain) (d : Dialect) (table : String) (op : Operation) :
    c.outline.template d table op = c.template d table op := by
  cases op with
  | select =>
    simp only [template, whereTemplate_outline]
    rfl
  | insert =>
    simp only [template, insertHead_outline]
    simp [outline, Function.comp_def]
  | update =>
    simp only [template, whereTemplate_outline]
    simp [outline, Function.comp_def]
  | delete => simp only [template, whereTemplate_outline]

end Chain

end QueryLoom
