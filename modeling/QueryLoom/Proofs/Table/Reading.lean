import QueryLoom.Proofs.Identifier
import QueryLoom.Proofs.Text.Collapse
import QueryLoom.Table.Alteration

/-!
# ALTER statements as they are read

A server knows of a statement only its text. It reads the words, of which one goes on to where its
quotes are closed, and among them the complete definition of a column. What it reads is the
alteration that was meant, so far as the dialect knows it and no word of a type or a default is one
of those that stand behind it.
-/

set_option autoImplicit false

namespace QueryLoom

namespace Text

/-! ## Words of a statement -/

/-- Whether what stands behind a character is in quotes. A quote that is never closed is a character
like any other. -/
def quotedBehind (quoted : Bool) (c : Char) (cs : List Char) : Bool :=
  if c = '\'' then !quoted && cs.contains '\'' else quoted

def stretches : Bool → List Char → List (List Char)
  | _, [] => [[]]
  | quoted, c :: cs =>
    if c = ' ' ∧ quoted = false then [] :: stretches false cs
    else match stretches (quotedBehind quoted c cs) cs with
      | [] => [[c]]
      | w :: ws => (c :: w) :: ws

def spaced (s : String) : List String := (stretches false s.toList).map String.ofList

def Closed (s : String) : Prop := s.toList.count '\'' % 2 = 0

instance decidableClosed (s : String) : Decidable (Closed s) := instDecidableEqNat _ _

def IsSolid (s : String) : Prop := ' ' ∉ s.toList ∧ '\'' ∉ s.toList

instance decidableIsSolid (s : String) : Decidable (IsSolid s) := instDecidableAnd

/-- In front of a space the scan is outside of quotes, and does not see what stands behind the
space: all quotes are closed, or there is none behind that could close one. -/
def Settles (quoted : Bool) (as bs : List Char) : Prop :=
  (as.count '\'' + quoted.toNat) % 2 = 0 ∨ ('\'' ∉ bs ∧ (quoted = true → '\'' ∈ as))

variable {quoted : Bool} {c : Char} {as bs : List Char} {s t : String}

theorem stretches_ne_nil (quoted : Bool) (cs : List Char) : stretches quoted cs ≠ [] := by
  cases cs with
  | nil => simp [stretches]
  | cons c cs =>
    rw [stretches]
    split
    · simp
    · split <;> simp

theorem stretches_cons {cs w : List Char} {ws : List (List Char)}
    (hc : ¬ (c = ' ' ∧ quoted = false))
    (hcs : stretches (quotedBehind quoted c cs) cs = w :: ws) :
    stretches quoted (c :: cs) = (c :: w) :: ws := by
  rw [stretches, if_neg hc, hcs]

theorem intercalate_stretches (quoted : Bool) (cs : List Char) :
    [' '].intercalate (stretches quoted cs) = cs := by
  induction cs generalizing quoted with
  | nil => simp [stretches]
  | cons c cs ih =>
    by_cases hc : c = ' ' ∧ quoted = false
    · obtain ⟨w, ws, hp⟩ := List.exists_cons_of_ne_nil (stretches_ne_nil false cs)
      have hrest := ih false
      rw [hp, intercalate_cons] at hrest
      rw [stretches, if_pos hc, hp, List.intercalate_cons_cons, intercalate_cons, hrest, hc.1]
      rfl
    · obtain ⟨w, ws, hp⟩ :=
        List.exists_cons_of_ne_nil (stretches_ne_nil (quotedBehind quoted c cs) cs)
      have hrest := ih (quotedBehind quoted c cs)
      rw [hp, intercalate_cons] at hrest
      rw [stretches_cons hc hp, intercalate_cons, List.cons_append, hrest]

theorem stretches_solid (h : ' ' ∉ as) (quoted : Bool) : stretches quoted as = [as] := by
  induction as generalizing quoted with
  | nil => rfl
  | cons c as ih =>
    have hc : ¬ (c = ' ' ∧ quoted = false) := fun hc => h (hc.1 ▸ List.mem_cons_self ..)
    exact stretches_cons hc (ih (fun hmem => h (List.mem_cons_of_mem _ hmem)) _)

theorem Settles.outside (h : Settles quoted [] bs) : quoted = false := by
  cases quoted with
  | false => rfl
  | true => simp [Settles] at h

theorem Settles.behind (h : Settles quoted (c :: as) bs) :
    quotedBehind quoted c (as ++ ' ' :: bs) = quotedBehind quoted c as ∧
      Settles (quotedBehind quoted c as) as bs := by
  by_cases hquote : c = '\''
  · subst hquote
    cases quoted with
    | true =>
      refine ⟨by simp [quotedBehind], ?_⟩
      simpa [Settles, quotedBehind, Nat.add_assoc] using h
    | false =>
      rcases h with hcount | ⟨hbs, -⟩
      -- The quotes of the rest are odd in number, so there is one that closes this one.
      · have hodd : as.count '\'' % 2 = 1 := by
          rw [List.count_cons_self, Bool.toNat_false] at hcount
          omega
        have hmem : '\'' ∈ as := List.count_pos_iff.mp (by omega)
        have hopened : quotedBehind false '\'' as = true := by simp [quotedBehind, hmem]
        refine ⟨by simp [quotedBehind, hmem], .inl ?_⟩
        rw [hopened, Bool.toNat_true]
        omega
      · exact ⟨by simp [quotedBehind, hbs], .inr ⟨hbs, by simp [quotedBehind]⟩⟩
  · have hbehind : ∀ cs, quotedBehind quoted c cs = quoted := fun _ => if_neg hquote
    rw [hbehind, hbehind]
    rw [Settles, List.count_cons_of_ne hquote, List.mem_cons] at h
    exact ⟨rfl, h.imp_right (And.imp_right fun hmem hq => (hmem hq).resolve_left (Ne.symm hquote))⟩

theorem stretches_append (h : Settles quoted as bs) :
    stretches quoted (as ++ ' ' :: bs) = stretches quoted as ++ stretches false bs := by
  induction as generalizing quoted with
  | nil =>
    rw [h.outside]
    rfl
  | cons c as ih =>
    by_cases hc : c = ' ' ∧ quoted = false
    · obtain ⟨rfl, rfl⟩ := hc
      have hsettles : Settles false as bs := h.behind.2
      rw [List.cons_append, stretches, if_pos ⟨rfl, rfl⟩, ih hsettles, stretches,
        if_pos ⟨rfl, rfl⟩]
      rfl
    · obtain ⟨hsame, hsettles⟩ := h.behind
      obtain ⟨w, ws, hp⟩ :=
        List.exists_cons_of_ne_nil (stretches_ne_nil (quotedBehind quoted c as) as)
      have hrest := ih hsettles
      rw [hp, List.cons_append] at hrest
      rw [List.cons_append, stretches_cons hc (hsame.symm ▸ hrest), stretches_cons hc hp,
        List.cons_append]

theorem intercalate_spaced (s : String) : " ".intercalate (spaced s) = s := by
  apply String.toList_inj.mp
  have hid : String.toList ∘ String.ofList = id := funext fun _ => String.toList_ofList
  rw [String.toList_intercalate, spaced, List.map_map, hid, List.map_id]
  exact intercalate_stretches false s.toList

theorem spaced_solid (h : IsSolid s) : spaced s = [s] := by
  rw [spaced, stretches_solid h.1, List.map_singleton, String.ofList_toList]

theorem IsSolid.append (hs : IsSolid s) (ht : IsSolid t) : IsSolid (s ++ t) := by
  rw [IsSolid, String.toList_append, List.mem_append, List.mem_append]
  exact ⟨not_or.mpr ⟨hs.1, ht.1⟩, not_or.mpr ⟨hs.2, ht.2⟩⟩

theorem IsSolid.closed (h : IsSolid s) : Closed s := by
  rw [Closed, List.count_eq_zero.mpr h.2]

theorem spaced_append (h : Closed s ∨ '\'' ∉ t.toList) :
    spaced (s ++ " " ++ t) = spaced s ++ spaced t := by
  have hsettles : Settles false s.toList t.toList :=
    h.imp id fun ht => ⟨ht, fun hf => nomatch hf⟩
  have htext : (s ++ " " ++ t).toList = s.toList ++ ' ' :: t.toList := by simp
  rw [spaced, htext, stretches_append hsettles, List.map_append]
  rfl

theorem spaced_intercalate {ws : List String} (hws : ws ≠ [])
    (h : ws.Pairwise fun v w => Closed v ∨ '\'' ∉ w.toList) :
    spaced (" ".intercalate ws) = ws.flatMap spaced := by
  induction ws with
  | nil => exact absurd rfl hws
  | cons w ws ih =>
    cases ws with
    | nil => simp
    | cons v vs =>
      obtain ⟨hfirst, hrest⟩ := List.pairwise_cons.mp h
      have hsettled : Closed w ∨ '\'' ∉ (" ".intercalate (v :: vs)).toList := by
        refine Decidable.or_iff_not_imp_left.mpr fun hopen => ?_
        have happend : ∀ s t : String, '\'' ∉ s.toList → '\'' ∉ t.toList →
            '\'' ∉ (s ++ t).toList := by
          intro s t hs ht
          rw [String.toList_append, List.mem_append]
          exact not_or.mpr ⟨hs, ht⟩
        exact of_intercalate (P := fun s => '\'' ∉ s.toList) (by decide) happend (by decide)
          fun w hw => (hfirst w hw).resolve_left hopen
      have hcut : " ".intercalate (w :: v :: vs) = w ++ " " ++ " ".intercalate (v :: vs) := by
        apply String.toList_inj.mp
        simp [String.toList_intercalate]
      rw [List.flatMap_cons, ← ih (by simp) hrest, hcut, spaced_append hsettled]

end Text

theorem IsIdentifier.isSolid {s : String} (h : IsIdentifier s) : Text.IsSolid s := by
  constructor
  · intro hmem
    have hpart := h.isPart hmem
    cases hpart
  · intro hmem
    have hpart := h.isPart hmem
    cases hpart

open Text

/-! ## Definitions of columns -/

namespace Column

def isOption (w : String) : Bool := w == "UNSIGNED" || w == "NULL" || w == "NOT"

/-- What stands behind the type. A default goes on to the end of the text, or to the last word if
that is one of its own. -/
def readOptions (c : Column) : List String → Option Column
  | [] => some c
  | "UNSIGNED" :: ws => readOptions { c with unsigned := true } ws
  | "NULL" :: ws => readOptions { c with nullable := true } ws
  | "NOT" :: "NULL" :: ws => readOptions c.notNull ws
  | "DEFAULT" :: ws =>
    if ws.getLast? = some "AUTO_INCREMENT" then
      some { c.withDefault (" ".intercalate ws.dropLast) with autoIncrement := true }
    else some (c.withDefault (" ".intercalate ws))
  | ["AUTO_INCREMENT"] => some { c with autoIncrement := true }
  | _ => none

def readDefinition (column : String) (ws : List String) : Option Column :=
  readOptions { name := column, dataType := " ".intercalate (ws.takeWhile fun w => !isOption w) }
    (ws.dropWhile fun w => !isOption w)

def spelled (c : Column) : Column :=
  { c with
    primaryKey := false
    unique := false
    foreignKey := none }

/-- Neither the type nor the default has a word that may follow it, and the type closes its quotes.
What is in quotes is not such a word. -/
structure Plain (c : Column) : Prop where
  closed : Closed c.dataType
  type : ∀ w ∈ spaced c.dataType, isOption w = false
  default : ∀ expr ∈ c.defaultExpr, (spaced expr).getLast? ≠ some "AUTO_INCREMENT"

def options (c : Column) : List String :=
  (if c.unsigned then ["UNSIGNED"] else []) ++ (if c.nullable then ["NULL"] else ["NOT", "NULL"]) ++
    (match c.defaultExpr with
      | some expr => "DEFAULT" :: spaced expr
      | none => []) ++
    if c.autoIncrement then ["AUTO_INCREMENT"] else []

theorem Plain.congr {c target : Column} (h : c.Plain) (htype : target.dataType = c.dataType)
    (hdefault : target.defaultExpr = c.defaultExpr) : target.Plain :=
  ⟨htype ▸ h.closed, htype ▸ h.type, hdefault ▸ h.default⟩

/-- The words behind the type, with the default in one piece. -/
def phrase (c : Column) : List String :=
  (if c.unsigned then ["UNSIGNED"] else []) ++ (if c.nullable then ["NULL"] else ["NOT", "NULL"]) ++
    (match c.defaultExpr with
      | some expr => ["DEFAULT", expr]
      | none => []) ++
    if c.autoIncrement then ["AUTO_INCREMENT"] else []

theorem definition_eq (c : Column) :
    c.definition = " ".intercalate (c.dataType :: c.phrase) := by
  apply String.toList_inj.mp
  unfold definition phrase
  cases c.unsigned <;> cases c.nullable <;> cases c.defaultExpr <;> cases c.autoIncrement <;> simp

theorem flatMap_phrase (c : Column) : c.phrase.flatMap spaced = c.options := by
  have hunsigned : spaced "UNSIGNED" = ["UNSIGNED"] := spaced_solid (by decide)
  have hnull : spaced "NULL" = ["NULL"] := spaced_solid (by decide)
  have hnot : spaced "NOT" = ["NOT"] := spaced_solid (by decide)
  have hdefault : spaced "DEFAULT" = ["DEFAULT"] := spaced_solid (by decide)
  have hauto : spaced "AUTO_INCREMENT" = ["AUTO_INCREMENT"] := spaced_solid (by decide)
  unfold phrase options
  cases c.unsigned <;> cases c.nullable <;> cases c.defaultExpr <;> cases c.autoIncrement <;>
    simp [hunsigned, hnull, hnot, hdefault, hauto]

/-- The default may leave a quote open, but what follows it has none. -/
theorem phrase_settled (c : Column) :
    c.phrase.Pairwise fun v w => Closed v ∨ '\'' ∉ w.toList := by
  unfold phrase
  cases c.unsigned <;> cases c.nullable <;> cases c.defaultExpr <;> cases c.autoIncrement <;>
    simp +decide

theorem spaced_definition {c : Column} (hclosed : Closed c.dataType) :
    spaced c.definition = spaced c.dataType ++ c.options := by
  have hsettled := List.pairwise_cons.mpr ⟨fun _ _ => .inl hclosed, c.phrase_settled⟩
  rw [definition_eq, spaced_intercalate (by simp) hsettled, List.flatMap_cons, flatMap_phrase]

theorem readOptions_options {c : Column} (h : c.Plain) :
    readOptions { name := c.name, dataType := c.dataType } c.options = some c.spelled := by
  have hdefault := h.default
  obtain ⟨name, dataType, nullable, defaultExpr, primaryKey, unique, autoIncrement, unsigned,
    foreignKey⟩ := c
  cases defaultExpr with
  | none =>
    cases unsigned <;> cases nullable <;> cases autoIncrement <;>
      simp [options, readOptions, spelled, notNull]
  | some expr =>
    have hlast := hdefault expr rfl
    cases unsigned <;> cases nullable <;> cases autoIncrement <;>
      simp [options, readOptions, spelled, notNull, withDefault, hlast, intercalate_spaced]

theorem readDefinition_definition {c : Column} (h : c.Plain) :
    readDefinition c.name (spaced c.definition) = some c.spelled := by
  have htype : ∀ w ∈ spaced c.dataType, (!isOption w) = true := by
    intro w hw
    rw [h.type w hw]
    rfl
  have hoptions : ∃ w ws, c.options = w :: ws ∧ isOption w = true := by
    unfold options
    cases c.unsigned <;> cases c.nullable <;> exact ⟨_, _, rfl, by decide⟩
  obtain ⟨w, ws, hcons, hw⟩ := hoptions
  have htake : (spaced c.definition).takeWhile (fun w => !isOption w) = spaced c.dataType := by
    rw [spaced_definition h.closed, List.takeWhile_append_of_pos htype, hcons]
    simp [hw]
  have hdrop : (spaced c.definition).dropWhile (fun w => !isOption w) = c.options := by
    rw [spaced_definition h.closed, List.dropWhile_append_of_pos htype, hcons]
    simp [hw]
  rw [readDefinition, htake, hdrop, intercalate_spaced]
  exact readOptions_options h

example :
    readDefinition "state" (spaced "enum('NOT NULL','it''s UNSIGNED') NULL DEFAULT 'NOT NULL'") =
      some { name := "state", dataType := "enum('NOT NULL','it''s UNSIGNED')",
             defaultExpr := some "'NOT NULL'" } := by
  decide +kernel

end Column

/-! ## Statements -/

namespace Alteration

def isKnown (d : Dialect) : Alteration → Bool
  | .define _ | .dropPrimaryKey | .dropIndex _ => d == .mySql
  | .setNotNull _ | .dropNotNull _ | .addNonNegative .. | .addIdentity _ | .dropIdentity _
  | .dropConstraint _ => d == .postgres
  | .addPrimaryKey _ | .setDefault .. | .dropDefault _ | .addUnique .. => true
  | _ => false

def between (w : String) : Option String :=
  match w.toList with
  | '(' :: cs => if cs.getLast? = some ')' then some (String.ofList cs.dropLast) else none
  | _ => none

def readChange (column : String) : List String → Option Alteration
  | ["SET", "NOT", "NULL"] => some (.setNotNull column)
  | ["DROP", "NOT", "NULL"] => some (.dropNotNull column)
  | "SET" :: "DEFAULT" :: literal => some (.setDefault column (" ".intercalate literal))
  | ["DROP", "DEFAULT"] => some (.dropDefault column)
  | ["ADD", "GENERATED", "BY", "DEFAULT", "AS", "IDENTITY"] => some (.addIdentity column)
  | ["DROP", "IDENTITY"] => some (.dropIdentity column)
  | _ => none

def readConstraint (name : String) : List String → Option Alteration
  | ["UNIQUE", column] => (between column).map (.addUnique name)
  | ["CHECK", column, ">=", "0)"] => (between (column ++ ")")).map (.addNonNegative name)
  | _ => none

def readClause : List String → Option Alteration
  | "MODIFY" :: "COLUMN" :: column :: definition =>
    (Column.readDefinition column definition).map .define
  | "ALTER" :: "COLUMN" :: column :: change => readChange column change
  | ["ADD", "PRIMARY", "KEY", column] => (between column).map .addPrimaryKey
  | "ADD" :: "CONSTRAINT" :: name :: constraint => readConstraint name constraint
  | ["DROP", "PRIMARY", "KEY"] => some .dropPrimaryKey
  | "DROP" :: "CONSTRAINT" :: name => some (.dropConstraint (" ".intercalate name))
  | "DROP" :: "INDEX" :: name => some (.dropIndex (" ".intercalate name))
  | _ => none

def read (table : String) : List String → Option Alteration
  | "ALTER" :: "TABLE" :: name :: clause => if name = table then readClause clause else none
  | _ => none

def Plain : Alteration → Prop
  | .define column => IsSolid column.name ∧ column.Plain
  | .addPrimaryKey column | .setNotNull column | .dropNotNull column | .addIdentity column
  | .dropIdentity column | .setDefault column _ | .dropDefault column => IsSolid column
  | .addUnique name column | .addNonNegative name column =>
    IsSolid name ∧ IsSolid column
  | _ => True

def spelled : Alteration → Alteration
  | .define column => .define column.spelled
  | a => a

theorem between_parentheses (s : String) : between ("(" ++ s ++ ")") = some s := by
  simp [between]

def phrase : Alteration → List String
  | .add column spec => ["ADD", column, spec]
  | .addColumn column spec => ["ADD", "COLUMN", column, spec]
  | .dropColumn column => ["DROP", "COLUMN", column]
  | .modify column spec => ["MODIFY", "COLUMN", column, spec]
  | .changeType column spec => ["ALTER", "COLUMN", column, "TYPE", spec]
  | .define column => ["MODIFY", "COLUMN", column.name, column.definition]
  | .addPrimaryKey column => ["ADD", "PRIMARY", "KEY", "(" ++ column ++ ")"]
  | .dropPrimaryKey => ["DROP", "PRIMARY", "KEY"]
  | .dropConstraint name => ["DROP", "CONSTRAINT", name]
  | .setNotNull column => ["ALTER", "COLUMN", column, "SET", "NOT", "NULL"]
  | .dropNotNull column => ["ALTER", "COLUMN", column, "DROP", "NOT", "NULL"]
  | .addNonNegative name column => ["ADD", "CONSTRAINT", name, "CHECK", "(" ++ column, ">=", "0)"]
  | .addIdentity column =>
    ["ALTER", "COLUMN", column, "ADD", "GENERATED", "BY", "DEFAULT", "AS", "IDENTITY"]
  | .dropIdentity column => ["ALTER", "COLUMN", column, "DROP", "IDENTITY"]
  | .setDefault column literal => ["ALTER", "COLUMN", column, "SET", "DEFAULT", literal]
  | .dropDefault column => ["ALTER", "COLUMN", column, "DROP", "DEFAULT"]
  | .addUnique name column => ["ADD", "CONSTRAINT", name, "UNIQUE", "(" ++ column ++ ")"]
  | .dropIndex name => ["DROP", "INDEX", name]
  | .addForeignKey name column refTable refColumn =>
    ["ADD", "CONSTRAINT", name, "FOREIGN", "KEY", "(" ++ column ++ ")", "REFERENCES", refTable,
      "(" ++ refColumn ++ ")"]
  | .dropForeignKey name => ["DROP", "FOREIGN", "KEY", name]

theorem clause_eq (a : Alteration) : a.clause = " ".intercalate a.phrase := by
  apply String.toList_inj.mp
  cases a <;> unfold clause phrase <;> simp

theorem isSolid_opened {s : String} (h : IsSolid s) : IsSolid ("(" ++ s) :=
  .append (by decide) h

theorem isSolid_parentheses {s : String} (h : IsSolid s) : IsSolid ("(" ++ s ++ ")") :=
  (isSolid_opened h).append (by decide)

/-- Only of the last word of a clause the quotes may be open. -/
theorem phrase_settled {d : Dialect} {a : Alteration} (hknown : a.isKnown d = true)
    (hplain : a.Plain) : a.phrase.Pairwise fun v w => Closed v ∨ '\'' ∉ w.toList := by
  cases a with
  | add | addColumn | dropColumn | modify | changeType | addForeignKey | dropForeignKey =>
    cases hknown
  | define | addUnique => simp +decide [phrase, hplain.1.closed]
  | addNonNegative name column =>
    simp +decide [phrase, hplain.1.closed, (isSolid_opened hplain.2).closed]
  | addPrimaryKey | setNotNull | dropNotNull | addIdentity | dropIdentity | setDefault
  | dropDefault =>
    simp +decide [phrase, IsSolid.closed hplain]
  | dropPrimaryKey | dropConstraint | dropIndex => simp +decide [phrase]

theorem spaced_clause {d : Dialect} {a : Alteration} (hknown : a.isKnown d = true)
    (hplain : a.Plain) : spaced a.clause = a.phrase.flatMap spaced := by
  have hwords : a.phrase ≠ [] := by
    cases a <;> simp [phrase]
  rw [clause_eq, spaced_intercalate hwords (phrase_settled hknown hplain)]

/-- What a dialect knows is read back from its clause. -/
theorem readClause_clause {d : Dialect} {a : Alteration} (hknown : a.isKnown d = true)
    (hplain : a.Plain) : readClause (spaced a.clause) = some a.spelled := by
  rw [spaced_clause hknown hplain]
  unfold phrase
  cases a with
  | define column =>
    have hread := Column.readDefinition_definition hplain.2
    simp (disch := decide) [spaced_solid, spaced_solid hplain.1, readClause, hread, spelled]
  | dropPrimaryKey => simp (disch := decide) [spaced_solid, readClause, spelled]
  | dropConstraint name | dropIndex name =>
    simp (disch := decide) [spaced_solid, readClause, intercalate_spaced, spelled]
  | addPrimaryKey column =>
    have hkey := isSolid_parentheses hplain
    simp (disch := decide) [spaced_solid, spaced_solid hkey, readClause, between_parentheses,
      spelled]
  | setNotNull column | dropNotNull column | addIdentity column | dropIdentity column
  | dropDefault column =>
    simp (disch := decide) [spaced_solid, spaced_solid hplain, readClause, readChange, spelled]
  | setDefault column literal =>
    simp (disch := decide) [spaced_solid, spaced_solid hplain, readClause, readChange,
      intercalate_spaced, spelled]
  | addUnique name column =>
    have hkey := isSolid_parentheses hplain.2
    simp (disch := decide) [spaced_solid, spaced_solid hplain.1, spaced_solid hkey, readClause,
      readConstraint, between_parentheses, spelled]
  | addNonNegative name column =>
    have hchecked := isSolid_opened hplain.2
    simp (disch := decide) [spaced_solid, spaced_solid hplain.1, spaced_solid hchecked, readClause,
      readConstraint, between_parentheses, spelled]
  | add | addColumn | dropColumn | modify | changeType | addForeignKey | dropForeignKey =>
    cases hknown

theorem read_statement {d : Dialect} {a : Alteration} {table : String} (htable : IsSolid table)
    (hknown : a.isKnown d = true) (hplain : a.Plain) :
    read table (spaced (a.statement table)) = some a.spelled := by
  have hwords : a.statement table = " ".intercalate ["ALTER", "TABLE", table, a.clause] := by
    apply String.toList_inj.mp
    unfold statement
    simp
  rw [hwords, spaced_intercalate (by simp) (by simp +decide [htable.closed])]
  simp (disch := decide) [spaced_solid, spaced_solid htable, read, readClause_clause hknown hplain]

end Alteration

end QueryLoom
