import QueryLoom.Proofs.AlterSession.Refusal
import QueryLoom.Proofs.Table.Literal

/-!
# Texts as defaults, as servers read them

A server finds the end of a text literal, and the text that it stands for, by the rules of its
dialect. A quote that stands there twice is a quote in both dialects. In MySQL a backslash takes
the character behind it along, and a literal is written without regard to that; so a text comes
back from its literal if the server is Postgres or its backslashes are harmless.
-/

set_option autoImplicit false

namespace QueryLoom

namespace Dialect

/-- What MySQL reads for a backslash with this character behind it. In front of the wildcards of a
pattern the backslash stays. -/
def escaped : Char → List Char
  | '0' => ['\x00']
  | 'b' => ['\x08']
  | 'n' => ['\n']
  | 'r' => ['\r']
  | 't' => ['\t']
  | 'Z' => ['\x1a']
  | '%' => ['\\', '%']
  | '_' => ['\\', '_']
  | c => [c]

/-- Reads on behind the opening quote of a literal: its text, and the statement behind its closing
quote. There is no text if the literal is not closed. -/
def readText (d : Dialect) : List Char → Option (List Char × List Char)
  | [] => none
  | [c] => if c = '\'' then some ([], []) else none
  | c :: e :: cs =>
    if c = '\'' then
      if e = '\'' then (readText d cs).map fun r => ('\'' :: r.1, r.2) else some ([], e :: cs)
    else if c = '\\' ∧ d = .mySql then (readText d cs).map fun r => (escaped e ++ r.1, r.2)
    else (readText d (e :: cs)).map fun r => (c :: r.1, r.2)

def Denotes (d : Dialect) (literal text : String) : Prop :=
  ∃ cs, literal.toList = '\'' :: cs ∧ d.readText cs = some (text.toList, [])

/-- No backslash takes along a character that it changes. -/
def Harmless : List Char → Prop
  | [] => True
  | c :: cs => (c = '\\' → cs.head? = some '%' ∨ cs.head? = some '_') ∧ Harmless cs

end Dialect

open Value

namespace Dialect

variable {d : Dialect} {c e : Char} {cs text rest : List Char}

@[simp] theorem readText_doubled (d : Dialect) (cs : List Char) :
    d.readText ('\'' :: '\'' :: cs) = (d.readText cs).map fun r => ('\'' :: r.1, r.2) := by
  simp [readText]

theorem readText_closed (he : e ≠ '\'') (cs : List Char) :
    d.readText ('\'' :: e :: cs) = some ([], e :: cs) := by
  simp [readText, he]

@[simp] theorem readText_escape (e : Char) (cs : List Char) :
    mySql.readText ('\\' :: e :: cs) =
      (mySql.readText cs).map fun r => (escaped e ++ r.1, r.2) := by
  simp [readText]

theorem readText_other (hquote : c ≠ '\'') (hescape : c ≠ '\\' ∨ d = .postgres) (hcs : cs ≠ []) :
    d.readText (c :: cs) = (d.readText cs).map fun r => (c :: r.1, r.2) := by
  obtain ⟨e, es, rfl⟩ := List.exists_cons_of_ne_nil hcs
  have hplain : ¬ (c = '\\' ∧ d = .mySql) := by
    rintro ⟨rfl, rfl⟩
    simp at hescape
  rw [readText, if_neg hquote, if_neg hplain]

theorem doubled_append_ne_nil (cs : List Char) : doubled cs ++ ['\''] ≠ [] := by simp

/-- Where a backslash is a character like others, every text is read back. -/
theorem readText_postgres (cs : List Char) :
    postgres.readText (doubled cs ++ ['\'']) = some (cs, []) := by
  induction cs with
  | nil => rfl
  | cons c cs ih =>
    by_cases hc : c = '\''
    · subst hc
      simp [ih]
    · rw [doubled_cons hc, List.cons_append,
        readText_other hc (Or.inr rfl) (doubled_append_ne_nil cs), ih]
      rfl

/-! ## Backslashes -/

theorem map_text_eq_some {o : Option (List Char × List Char)} {f : List Char → List Char} :
    (o.map fun r => (f r.1, r.2)) = some (text, []) ↔ ∃ t, o = some (t, []) ∧ f t = text := by
  rcases o with _ | ⟨t, rest⟩
  · simp
  · simp only [Option.map_some, Option.some.injEq, Prod.mk.injEq]
    constructor
    · rintro ⟨htext, hrest⟩
      exact ⟨t, ⟨rfl, hrest⟩, htext⟩
    · rintro ⟨_, ⟨rfl, hrest⟩, htext⟩
      exact ⟨htext, hrest⟩

/-- Once a backslash has taken one of two quotes along, the other one closes the literal too early,
or is read together with the quote behind it: the literal never ends where the statement does. -/
theorem readText_shifted (cs text : List Char) :
    mySql.readText ('\'' :: (doubled cs ++ ['\''])) ≠ some (text, []) := by
  induction cs generalizing text with
  | nil => simp [readText]
  | cons c cs ih =>
    by_cases hc : c = '\''
    · subst hc
      rw [doubled_quote, List.cons_append, readText_doubled, ne_eq, map_text_eq_some]
      rintro ⟨t, hread, -⟩
      exact ih t hread
    · rw [doubled_cons hc, List.cons_append, readText_closed hc]
      simp

theorem readText_quote_iff :
    mySql.readText (doubled ('\'' :: cs) ++ ['\'']) = some (text, []) ↔
      ∃ t, mySql.readText (doubled cs ++ ['\'']) = some (t, []) ∧ '\'' :: t = text := by
  rw [doubled_quote, List.cons_append, List.cons_append, readText_doubled]
  exact map_text_eq_some

theorem readText_backslash_iff :
    mySql.readText (doubled ('\\' :: e :: cs) ++ ['\'']) = some (text, []) ↔
      e ≠ '\'' ∧
        ∃ t, mySql.readText (doubled cs ++ ['\'']) = some (t, []) ∧ escaped e ++ t = text := by
  rw [doubled_cons (by decide)]
  by_cases he : e = '\''
  · subst he
    rw [doubled_quote, List.cons_append, List.cons_append, List.cons_append, readText_escape,
      map_text_eq_some]
    simp [readText_shifted]
  · rw [doubled_cons he, List.cons_append, List.cons_append, readText_escape, map_text_eq_some]
    simp [he]

theorem readText_other_iff (hquote : c ≠ '\'') (hescape : c ≠ '\\') :
    mySql.readText (doubled (c :: cs) ++ ['\'']) = some (text, []) ↔
      ∃ t, mySql.readText (doubled cs ++ ['\'']) = some (t, []) ∧ c :: t = text := by
  rw [doubled_cons hquote, List.cons_append,
    readText_other hquote (Or.inl hescape) (doubled_append_ne_nil cs)]
  exact map_text_eq_some

/-- What a server reads for a backslash and another character is these two, or one character. -/
theorem escaped_cases (e : Char) :
    escaped e = ['\\', e] ∧ (e = '%' ∨ e = '_') ∨
      (escaped e).length = 1 ∧ ¬ (e = '%' ∨ e = '_') := by
  unfold escaped
  split <;> simp_all

/-- A backslash never makes a text longer. -/
theorem length_le_of_readText (h : mySql.readText (doubled cs ++ ['\'']) = some (text, [])) :
    text.length ≤ cs.length := by
  -- on the length, for a backslash takes a second character along
  induction hn : cs.length using Nat.strongRecOn generalizing cs text with
  | _ n ih =>
    subst hn
    cases cs with
    | nil =>
      cases h
      simp
    | cons c cs =>
      by_cases hquote : c = '\''
      · subst hquote
        obtain ⟨t, ht, rfl⟩ := readText_quote_iff.mp h
        simpa using ih _ (by simp) ht rfl
      · by_cases hescape : c = '\\'
        · subst hescape
          cases cs with
          | nil => simp [readText] at h
          | cons e es =>
            obtain ⟨-, t, ht, rfl⟩ := readText_backslash_iff.mp h
            have hle := ih es.length (by simp only [List.length_cons]; omega) ht rfl
            rcases escaped_cases e with ⟨he, -⟩ | ⟨he, -⟩ <;> simp [he] <;> omega
        · obtain ⟨t, ht, rfl⟩ := (readText_other_iff hquote hescape).mp h
          simpa using ih _ (by simp) ht rfl

/-- MySQL reads a text back from its literal exactly if no backslash changes a character. -/
theorem readText_mySql_iff (cs : List Char) :
    mySql.readText (doubled cs ++ ['\'']) = some (cs, []) ↔ Harmless cs := by
  induction hn : cs.length using Nat.strongRecOn generalizing cs with
  | _ n ih =>
    subst hn
    cases cs with
    | nil => exact iff_of_true rfl trivial
    | cons c cs =>
      by_cases hquote : c = '\''
      · subst hquote
        rw [readText_quote_iff]
        simp [Harmless, ih cs.length (by simp) cs rfl]
      · by_cases hescape : c = '\\'
        · subst hescape
          cases cs with
          | nil => simp [readText, Harmless]
          | cons e es =>
            rw [readText_backslash_iff]
            have hes := ih es.length (by simp only [List.length_cons]; omega) es rfl
            rcases escaped_cases e with ⟨he, hwild⟩ | ⟨he, hwild⟩
            · have hplain : e ≠ '\'' ∧ e ≠ '\\' := by rcases hwild with rfl | rfl <;> decide
              simp [Harmless, he, hwild, hplain, hes]
            -- one character less is read, and what follows does not make up for it
            · refine iff_of_false ?_ (fun h => hwild (by simpa using h.1 rfl))
              rintro ⟨-, t, ht, heq⟩
              have hle := length_le_of_readText ht
              have hlength := congrArg List.length heq
              simp [he] at hlength
              omega
        · rw [readText_other_iff hquote hescape]
          simp [Harmless, hescape, ih cs.length (by simp) cs rfl]

theorem denotes_quoteLiteral (d : Dialect) (s : String) :
    d.Denotes (quoteLiteral s) s ↔ d = .postgres ∨ Harmless s.toList := by
  rw [Denotes, quoteLiteral_toList]
  cases d with
  | mySql => simp [readText_mySql_iff]
  | postgres => simp [readText_postgres]

end Dialect

namespace AlterSession

variable {σ : Type}

/-- To set a text as the default of a column, a session runs nothing if the snapshot shows it
already, and else one statement that ends with the literal of the text. The server reads this as
one literal to its end, and as that text, if and only if it is Postgres or every backslash of the
text stands in front of a wildcard of patterns. -/
theorem setDefault_denotes (db : Database σ) (run : SessionRun σ) (s : String) :
    ((AlterVerb.setDefault (.text s)).apply db).outcome run =
        (match run.session.activeColumn with
        | .error e => (.error e, run)
        | .ok c =>
          if (AlterVerb.setDefault (.text s)).isMet c then (.ok (), run)
          else (change db (.setDefault c.name (quoteLiteral s))).outcome run) ∧
      (∀ table column, (Alteration.setDefault column (quoteLiteral s)).statement table =
        "ALTER TABLE " ++ table ++ " ALTER COLUMN " ++ column ++ " SET DEFAULT " ++
          quoteLiteral s) ∧
      (db.dialect.Denotes (quoteLiteral s) s ↔
        db.dialect = .postgres ∨ Dialect.Harmless s.toList) := by
  refine ⟨?_, fun table column => Alteration.statement_setDefault table column (quoteLiteral s),
    Dialect.denotes_quoteLiteral db.dialect s⟩
  rw [apply_outcome, plan_of_isConstraint rfl]
  cases run.session.activeColumn with
  | error e => rfl
  | ok c =>
    cases hmet : (AlterVerb.setDefault (.text s)).isMet c with
    | true => simp [performed, Except.map, hmet, perform]
    | false => simp [performed, Except.map, hmet, AlterVerb.steps, Step.run, literal]

def intrusion : String := "\\', DROP COLUMN role -- "

/-- The literal ends behind its first quote, and a column is dropped. -/
theorem intrusion_escapes :
    ((AlterVerb.setDefault (.text intrusion)).apply idle).outcome chosen =
        (change idle (.setDefault "email" (quoteLiteral intrusion))).outcome chosen ∧
      quoteLiteral intrusion = "'\\'', DROP COLUMN role -- '" ∧
      ¬ idle.dialect.Denotes (quoteLiteral intrusion) intrusion ∧
      idle.dialect.readText (quoteLiteral intrusion).toList.tail =
        some (['\''], ", DROP COLUMN role -- '".toList) := by
  obtain ⟨hout, -, hdenotes⟩ := setDefault_denotes idle chosen intrusion
  refine ⟨hout, by decide +kernel, mt hdenotes.mp ?_, by decide +kernel⟩
  rintro (hdialect | hharmless)
  · cases hdialect
  · exact absurd (hharmless.1 rfl) (by decide)

end AlterSession

end QueryLoom
