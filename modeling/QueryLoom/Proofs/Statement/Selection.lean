import QueryLoom.Proofs.Bindings.Order
import QueryLoom.Proofs.Chain.Parts
import QueryLoom.Proofs.Statement.References

/-!
# What a SELECT selects

The verbs of a chain mention tables: a join the table that it joins, a selected column the table
that it is a column of. Read off the verbs alone, the mentions tell which tables take part and in
which order, what stands in the list, and whether references have their tables with them. A column
that is asked for twice stands once, and a table keeps the place of its first mention.
-/

set_option autoImplicit false

namespace QueryLoom

structure Mention where
  table : String
  column : Option String
  deriving DecidableEq, Repr

namespace Mention

def tables (ms : List Mention) : List String := (ms.map Mention.table).eraseDups

def requested (ms : List Mention) : List Reference :=
  ms.filterMap fun m => m.column.map fun column => ⟨m.table, column⟩

/-- The selected columns once each: by tables, and of one table in the order of the requests. -/
def selection (ms : List Mention) : List Reference :=
  (tables ms).flatMap fun t => ((requested ms).filter fun r => r.table = t).eraseDups

def spelling (ms : List Mention) (r : Reference) : String :=
  if 1 < (tables ms).length then r.qualified else r.column

def ofItems (tablePrefix table : String) : List String → List Mention
  | [] => []
  | item :: items =>
    match (Chain.start .select table).reference tablePrefix item with
    | .ok r => ⟨r.table, some r.column⟩ :: ofItems tablePrefix table items
    | .error _ => []

end Mention

def Verb.mentions (tablePrefix table : String) : Verb → List Mention
  | .select list => Mention.ofItems tablePrefix table (Identifier.splitList list)
  | .join _ name condition =>
    match Identifier.table tablePrefix name,
      Identifier.rawFragment "join condition" condition with
    | .ok t, .ok _ => [⟨t, none⟩]
    | _, _ => []
  | _ => []

def mentions (tablePrefix table : String) (verbs : List Verb) : List Mention :=
  ⟨table, none⟩ :: verbs.flatMap (Verb.mentions tablePrefix table)

namespace Mention

variable {ms : List Mention} {r : Reference} {t : String}

theorem mem_tables : t ∈ tables ms ↔ ∃ m ∈ ms, m.table = t := by
  simp [tables]

theorem tables_concat (ms : List Mention) (m : Mention) :
    tables (ms ++ [m]) = if m.table ∈ tables ms then tables ms else tables ms ++ [m.table] := by
  rw [tables, List.map_append, List.map_singleton, eraseDups_concat]
  simp [tables]

theorem requested_concat_table (ms : List Mention) (t : String) :
    requested (ms ++ [⟨t, none⟩]) = requested ms := by
  simp [requested]

theorem requested_concat_column (ms : List Mention) (r : Reference) :
    requested (ms ++ [⟨r.table, some r.column⟩]) = requested ms ++ [r] := by
  simp [requested]

theorem table_mem_tables (h : r ∈ requested ms) : r.table ∈ tables ms := by
  obtain ⟨m, hm, hmr⟩ := List.mem_filterMap.mp h
  obtain ⟨column, -, rfl⟩ := Option.map_eq_some_iff.mp hmr
  exact mem_tables.mpr ⟨m, hm, rfl⟩

theorem filter_requested_eq_nil (h : t ∉ tables ms) :
    (requested ms).filter (fun r => r.table = t) = [] := by
  refine List.filter_eq_nil_iff.mpr fun r hr ht => h ?_
  rw [← of_decide_eq_true ht]
  exact table_mem_tables hr

theorem mem_selection : r ∈ selection ms ↔ r ∈ requested ms := by
  simp only [selection, List.mem_flatMap, List.mem_eraseDups, List.mem_filter, decide_eq_true_iff]
  exact ⟨fun ⟨_, _, hr, _⟩ => hr, fun hr => ⟨r.table, table_mem_tables hr, hr, rfl⟩⟩

end Mention

namespace Chain

open Mention Piece

variable {c : Chain} {ms : List Mention} {tablePrefix table : String}

/-! ## Mentions recorded -/

structure Tracks (c : Chain) (ms : List Mention) : Prop where
  registered : c.registered = Mention.tables ms
  columns : ∀ e ∈ c.columns, (e.2.map fun column => (⟨e.1, column⟩ : Reference)) =
    ((requested ms).filter fun r => r.table = e.1).eraseDups

theorem Tracks.congr {c' : Chain} (h : c.Tracks ms) (hcolumns : c'.columns = c.columns) :
    c'.Tracks ms := by
  constructor
  · rw [Chain.registered, hcolumns]
    exact h.registered
  · rw [hcolumns]
    exact h.columns

theorem Tracks.selectedReferences_eq (h : c.Tracks ms) : c.selectedReferences = selection ms := by
  have hentries : c.selectedReferences = c.columns.flatMap fun e =>
      ((requested ms).filter fun r => r.table = e.1).eraseDups := by
    rw [selectedReferences, List.flatMap_def, List.flatMap_def, List.map_congr_left h.columns]
  rw [hentries, selection, ← h.registered, Chain.registered, List.flatMap_map]

theorem start_tracks (table : String) : (start .select table).Tracks [⟨table, none⟩] := by
  constructor <;>
    simp [start, fresh, registerTable, Chain.registered, Mention.tables, requested,
      List.eraseDups_cons]

/-- A table that is mentioned for the first time comes in without columns. -/
theorem Tracks.registerTable (h : c.Tracks ms) (t : String) :
    (c.registerTable t).Tracks (ms ++ [⟨t, none⟩]) := by
  constructor
  · rw [registerTable_registered, tables_concat, h.registered]
  · rw [requested_concat_table, columns_registerTable]
    split
    · exact h.columns
    · rename_i hnew
      intro e he
      rcases List.mem_append.mp he with he | he
      · exact h.columns e he
      · obtain rfl := List.mem_singleton.mp he
        rw [filter_requested_eq_nil (h.registered ▸ hnew)]
        rfl

theorem insertColumn_eq_map (r : Reference) {columns : List (String × List String)}
    (hnodup : (columns.map Prod.fst).Nodup) :
    insertColumn r columns = columns.map fun e =>
      if e.1 = r.table then
        (e.1, if e.2.contains r.column then e.2 else e.2 ++ [r.column])
      else e := by
  induction columns with
  | nil => rfl
  | cons e columns ih =>
    obtain ⟨t, cols⟩ := e
    obtain ⟨hnew, hrest⟩ := List.nodup_cons.mp hnodup
    by_cases ht : t = r.table
    · have hothers : ∀ e ∈ columns, e.1 ≠ r.table := fun e he heq =>
        hnew (List.mem_map.mpr ⟨e, he, heq.trans ht.symm⟩)
      have hsame : (columns.map fun e =>
          if e.1 = r.table then
            (e.1, if e.2.contains r.column then e.2 else e.2 ++ [r.column])
          else e) = columns.map id :=
        List.map_congr_left fun e he => if_neg (hothers e he)
      rw [insertColumn, if_pos ht, List.map_cons, if_pos ht, hsame, List.map_id]
    · rw [insertColumn, if_neg ht, List.map_cons, if_neg ht, ih hrest]

theorem Tracks.joining (h : c.Tracks ms) (j : Join) :
    (c.joining j).Tracks (ms ++ [⟨j.table, none⟩]) :=
  (h.registerTable j.table).congr rfl

/-- A column comes in behind those of its table, unless it has been selected before. -/
theorem Tracks.selecting (h : c.Tracks ms) (hnodup : c.registered.Nodup) (r : Reference) :
    (c.selecting r).Tracks (ms ++ [⟨r.table, some r.column⟩]) := by
  have hnew := h.registerTable r.table
  have hold : requested (ms ++ [⟨r.table, none⟩]) = requested ms :=
    requested_concat_table ms r.table
  constructor
  · rw [selecting_registered, hnew.registered, tables_concat, tables_concat]
  · rw [requested_concat_column]
    change ∀ e ∈ insertColumn r (c.registerTable r.table).columns, _
    rw [insertColumn_eq_map r (nodup_registerTable hnodup r.table), List.forall_mem_map]
    intro e he
    have hcolumns := hnew.columns e he
    rw [hold] at hcolumns
    rw [List.filter_append]
    by_cases ht : e.1 = r.table
    · have hmem : r.column ∈ e.2 ↔ r ∈ (requested ms).filter fun r' => r'.table = e.1 := by
        rw [← List.mem_eraseDups (l := List.filter _ _), ← hcolumns, ht, List.mem_map]
        exact ⟨fun hcol => ⟨_, hcol, rfl⟩,
          fun ⟨column, hcol, heq⟩ => congrArg Reference.column heq ▸ hcol⟩
      rw [if_pos ht, show [r].filter (fun r' => r'.table = e.1) = [r] by simp [ht],
        eraseDups_concat, ← hcolumns]
      by_cases hcol : r.column ∈ e.2
      · rw [if_pos (hmem.mp hcol), if_pos (by simpa using hcol)]
      · rw [if_neg fun hc => hcol (hmem.mpr hc), if_neg (by simpa using hcol)]
        simp [ht]
    · rw [if_neg ht, show [r].filter (fun r' => r'.table = e.1) = [] by simp [Ne.symm ht],
        List.append_nil]
      exact hcolumns

/-! ## Runs -/

/-- The references that the verbs of a chain make are those of the chain as it was started. -/
theorem reference_start (h : c.table = some table) (column : String) :
    c.reference tablePrefix column = (start .select table).reference tablePrefix column :=
  reference_congr (c := start .select table) h column

theorem selectColumns_tracks (items : List String) (ht : c.table = some table)
    (hnodup : c.registered.Nodup) (h : c.Tracks ms) :
    ((selectColumns tablePrefix items).outcome c).2.Tracks
      (ms ++ ofItems tablePrefix table items) := by
  induction items generalizing c ms with
  | nil => simpa [ofItems, selectColumns] using h
  | cons item items ih =>
    rw [selectColumns_cons_outcome, ofItems, reference_start ht]
    cases (start .select table).reference tablePrefix item with
    | error e => simpa using h
    | ok r =>
      have hnext := ih (c := c.selecting r) (by rw [selecting_eq]; exact ht)
        (by rw [selecting_registered]; exact nodup_registerTable hnodup r.table)
        (h.selecting hnodup r)
      simpa using hnext

theorem addJoin_tracks (kind : JoinKind) (name condition : String) (h : c.Tracks ms) :
    ((addJoin tablePrefix kind name condition).outcome c).2.Tracks
      (ms ++ (Verb.join kind name condition).mentions tablePrefix table) := by
  simp only [addJoin, Verb.mentions]
  cases Identifier.table tablePrefix name with
  | error e => simpa [Attempt.outcome_bind] using h
  | ok t =>
    cases Identifier.rawFragment "join condition" condition with
    | error e => simpa [Attempt.outcome_bind] using h
    | ok on => simpa [Attempt.outcome_bind, Chain.joining] using h.joining ⟨kind, t, on⟩

theorem after_tracks (v : Verb) (ht : c.table = some table) (hnodup : c.registered.Nodup)
    (h : c.Tracks ms) :
    (v.after tablePrefix c).Tracks (ms ++ v.mentions tablePrefix table) := by
  have hother : v.part ≠ .selection → (v.after tablePrefix c).Tracks ms := by
    intro hpart
    have hcolumns : ((v.after tablePrefix c).only .selection).columns =
        (c.only .selection).columns := by
      rw [Verb.after, (v.within_part tablePrefix).other .selection (Ne.symm hpart)]
    exact h.congr hcolumns
  cases v with
  | select list => exact selectColumns_tracks _ ht hnodup h
  | join kind name condition => exact addJoin_tracks kind name condition h
  | _ => simpa [Verb.mentions] using hother (by simp [Verb.part])

theorem run_tracks (verbs : List Verb) (ht : c.table = some table) (hc : c.Registered table)
    (h : c.Tracks ms) :
    (c.run tablePrefix verbs).Tracks (ms ++ verbs.flatMap (Verb.mentions tablePrefix table)) := by
  induction verbs generalizing c ms with
  | nil => simpa [run] using h
  | cons v verbs ih =>
    have hnext := ih (c := v.after tablePrefix c) ((run_head tablePrefix c [v]).1.trans ht)
      (run_invariant step_registered hc [v]) (after_tracks v ht hc.nodup h)
    simpa [run] using hnext

theorem run_start_tracks (tablePrefix table : String) (verbs : List Verb) :
    ((start .select table).run tablePrefix verbs).Tracks (mentions tablePrefix table verbs) :=
  run_tracks verbs rfl (start_registered .select table) (start_tracks table)

/-! ## The statement -/

theorem ofItems_column (items : List String) :
    ∀ m ∈ ofItems tablePrefix table items, ∀ column ∈ m.column, IsIdentifier column := by
  induction items with
  | nil => simp [ofItems]
  | cons item items ih =>
    rw [ofItems]
    split
    · rename_i r hr
      refine List.forall_mem_cons.mpr ⟨fun column hcolumn => ?_, ih⟩
      rw [← Option.some.inj hcolumn]
      exact reference_column hr
    · simp

theorem mentions_column (verbs : List Verb) :
    ∀ r ∈ requested (mentions tablePrefix table verbs), IsIdentifier r.column := by
  intro r hr
  obtain ⟨m, hm, hmr⟩ := List.mem_filterMap.mp hr
  obtain ⟨column, hcolumn, rfl⟩ := Option.map_eq_some_iff.mp hmr
  rcases List.mem_cons.mp hm with rfl | hm
  · cases hcolumn
  · obtain ⟨v, -, hv⟩ := List.mem_flatMap.mp hm
    cases v with
    | select list => exact ofItems_column _ m hv column hcolumn
    | join kind name condition =>
      simp only [Verb.mentions] at hv
      split at hv
      · rw [List.mem_singleton.mp hv] at hcolumn
        cases hcolumn
      · cases hv
    | _ => cases hv

theorem spelling_ne_star {r : Reference} (h : IsIdentifier r.column) (ms : List Mention) :
    Mention.spelling ms r ≠ "*" := by
  obtain ⟨a, as, hcolumn, ha, -⟩ := h
  intro hstar
  have hlist := congrArg String.toList hstar
  unfold Mention.spelling at hlist
  split at hlist
  · have hlength := congrArg List.length hlist
    simp [Reference.qualified, hcolumn] at hlength
    omega
  · rw [hcolumn] at hlist
    rw [(List.cons.inj hlist).1] at ha
    exact absurd ha (by decide)

theorem Tracks.qualify_eq (h : c.Tracks ms) : c.qualify = Mention.spelling ms := by
  funext r
  unfold qualify Mention.spelling
  rw [← h.registered, if_congr c.isMultiTable_iff rfl rfl]
  rfl

/-- A SELECT is written from its references, all with their tables if the verbs have mentioned
more than one and all bare otherwise. Its list has the columns that were asked for, by tables in
the order of their first mentions, and a star if and only if none was; aggregates come behind. -/
theorem run_selection (tablePrefix table : String) (verbs : List Verb) (d : Dialect) :
    let c := (start .select table).run tablePrefix verbs
    let ms := mentions tablePrefix table verbs
    let columns :=
      if requested ms = [] then ["*"] else (selection ms).map (Mention.spelling ms)
    ∃ q, c.compile d = .ok q ∧
      q.sql = String.ofList (Text.collapse
        (spell (Mention.spelling ms) (c.pieces d table .select)).toList) ∧
      Piece.references (c.pieces d table .select) =
        selection ms ++ c.filters.flatMap Filter.references ++ c.groupBy.toList ++
          (c.sort.map SortTerm.reference).toList ∧
      c.selectList d =
        ", ".intercalate (columns ++ c.groupConcats.map fun g => d.groupConcat g.expr g.label) ∧
      (columns = ["*"] ↔ requested ms = []) := by
  intro c ms columns
  have htracks : c.Tracks ms := run_start_tracks tablePrefix table verbs
  obtain ⟨htable, hoperation⟩ := run_start_head tablePrefix .select table verbs
  have hempty : selection ms = [] ↔ requested ms = [] := by
    simp [List.eq_nil_iff_forall_not_mem, mem_selection]
  refine ⟨_, by rw [compile_eq htable hoperation]; rfl, ?_, ?_, ?_, ?_⟩
  · rw [← htracks.qualify_eq, spell_pieces rfl]
  · rw [references_selectPieces, references, htracks.selectedReferences_eq]
  · rw [selectList, htracks.selectedReferences_eq, htracks.qualify_eq]
    by_cases hnone : requested ms = []
    · simp [columns, hnone, hempty.mpr hnone]
    · simp [columns, hnone, mt hempty.mp hnone]
  · refine ⟨fun hstar => by_contra fun hsome => ?_, fun hnone => if_pos hnone⟩
    have hmem : "*" ∈ (selection ms).map (Mention.spelling ms) := by
      rw [← show columns = _ from if_neg hsome, hstar]
      exact List.mem_singleton_self _
    obtain ⟨r, hr, hspelled⟩ := List.mem_map.mp hmem
    exact spelling_ne_star (mentions_column verbs r (mem_selection.mp hr)) ms hspelled

/-- The table that is started on comes first, wherever its columns are asked for. -/
example :
    selection (mentions "" "users"
      [.select "roles.title, name, name", .join .left "teams" "teams.id = users.team",
        .select "email"]) =
      [⟨"users", "name"⟩, ⟨"users", "email"⟩, ⟨"roles", "title"⟩] := rfl

end Chain

end QueryLoom
