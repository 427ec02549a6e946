import QueryLoom.Proofs.AlterSession.TextDefault
import QueryLoom.Proofs.Floating.Rounding
import QueryLoom.Proofs.Table.DefaultExpr
import QueryLoom.Proofs.Text.Digits

/-!
# Defaults that are reported already

A session compares the default that a server reports with the literal that it is asked for, and
runs nothing if they are the same. Texts are compared as they are, through casts and white space.
Whole numbers are compared as doubles, so two numbers are the same if one double is nearest to
both.
-/

set_option autoImplicit false

namespace QueryLoom

namespace Value

/-- The literal of a text tells the text. -/
theorem quoteLiteral_injective {s t : String} (h : quoteLiteral s = quoteLiteral t) : s = t := by
  have hchars := congrArg String.toList h
  rw [quoteLiteral_toList, quoteLiteral_toList] at hchars
  have hread := congrArg Dialect.postgres.readText (List.cons.inj hchars).2
  rw [Dialect.readText_postgres, Dialect.readText_postgres] at hread
  exact String.toList_inj.mp (Prod.mk.inj (Option.some.inj hread)).1

/-- No white space is at either end of the literal of a text. -/
theorem trim_quoteLiteral (s : String) :
    Text.trim (quoteLiteral s).toList = (quoteLiteral s).toList := by
  have hquote : Text.isBlank '\'' = false := by decide
  have hstart := Text.trimStart_append_cons hquote [] (doubled s.toList ++ ['\''])
  have hend := Text.trimEnd_append_cons hquote ('\'' :: doubled s.toList) []
  rw [List.nil_append] at hstart
  rw [quoteLiteral_toList, Text.trim, hstart]
  exact hend

end Value

namespace DefaultExpr
open Value

variable {before after : String}

/-- The default of a server is the same as a literal that it reports, for a value of any kind. -/
theorem same_of_reported (hbefore : ∀ c ∈ before.toList, Text.isBlank c = true)
    (hafter : ∀ c ∈ after.toList, Text.isBlank c = true) {v : Value} {reported : String}
    (h : Reported v.literal reported) : same reported (before ++ v.literal ++ after) = true := by
  have hexpr := h.stripCasts_eq (.of_inert v.literal_inert)
  have hliteral := Text.trim_surrounded hbefore hafter v.literal.toList
  rw [← String.toList_append, ← String.toList_append] at hliteral
  simp only [same, hexpr, hliteral, beq_self_eq_true, if_true]

/-- It is the same as the literal of a text only if it is that text. -/
theorem same_text_iff (hbefore : ∀ c ∈ before.toList, Text.isBlank c = true)
    (hafter : ∀ c ∈ after.toList, Text.isBlank c = true) (s : String) {t reported : String}
    (h : Reported (Value.text t).literal reported) :
    same reported (before ++ (Value.text s).literal ++ after) = true ↔ s = t := by
  refine ⟨fun hsame => ?_, fun heq => same_of_reported hbefore hafter (heq ▸ h)⟩
  have hexpr := h.stripCasts_eq (.of_inert (literal_inert _))
  have hliteral : Text.trim (before ++ (Value.text s).literal ++ after).toList =
      (quoteLiteral s).toList := by
    rw [String.toList_append, String.toList_append, Text.trim_surrounded hbefore hafter, literal,
      trim_quoteLiteral]
  have hquoted : isQuoted (quoteLiteral s).toList = true := by
    rw [quoteLiteral_toList]
    rfl
  rw [literal, trim_quoteLiteral] at hexpr
  simp only [same, hexpr, hliteral, hquoted, if_true, Bool.if_false_right, Bool.and_true,
    decide_eq_true_eq, beq_iff_eq] at hsame
  exact quoteLiteral_injective (String.toList_inj.mp hsame.symm)

/-! ## Whole numbers -/

def integerForms (n : ℤ) : List String :=
  [Text.integer n, "(" ++ Text.integer n ++ ")", "'" ++ Text.integer n ++ "'"]

theorem unwrap_wrapped (opening closing : Char) (cs : List Char) :
    unwrap opening closing (opening :: (cs ++ [closing])) = cs := by simp [unwrap]

theorem unwrap_of_head {opening closing : Char} {cs : List Char} (h : cs.head? ≠ some opening) :
    unwrap opening closing cs = cs := by
  cases cs with
  | nil => rfl
  | cons c cs => simp [unwrap, show c ≠ opening by simpa using h]

theorem integer_head {c : Char} (hc : Floating.isNumeric c = false) (n : ℤ) :
    (Text.integer n).toList.head? ≠ some c := by
  intro hhead
  rw [(Floating.integer_numeric n c (List.mem_of_mem_head? hhead)).1] at hc
  cases hc

theorem number?_form {n : ℤ} (hn : n.natAbs < 10 ^ 20) {form : String}
    (hform : form ∈ integerForms n) : number? form.toList = some (Double.ofInt n) := by
  have hopen := integer_head (c := '(') (by decide) n
  have hquote := integer_head (c := '\'') (by decide) n
  have hinner : unwrap '\'' '\'' (unwrap '(' ')' form.toList) = (Text.integer n).toList := by
    simp only [integerForms, List.mem_cons, List.not_mem_nil, or_false] at hform
    rcases hform with rfl | rfl | rfl
    · rw [unwrap_of_head hopen, unwrap_of_head hquote]
    · have hchars : ("(" ++ Text.integer n ++ ")").toList =
          '(' :: ((Text.integer n).toList ++ [')']) := by simp
      rw [hchars, unwrap_wrapped, unwrap_of_head hquote]
    · have hchars : ("'" ++ Text.integer n ++ "'").toList =
          '\'' :: ((Text.integer n).toList ++ ['\'']) := by simp
      have hother : ('\'' :: ((Text.integer n).toList ++ ['\''])).head? ≠ some '(' := by simp
      rw [hchars, unwrap_of_head hother, unwrap_wrapped]
  rw [number?, hinner, String.ofList_toList, Double.read_integer hn]
  rfl

theorem form_chars {n : ℤ} {form : String} (hform : form ∈ integerForms n) :
    ∀ c ∈ form.toList, c ≠ ':' ∧ Text.isBlank c = false := by
  have hinteger : ∀ c ∈ (Text.integer n).toList, c ≠ ':' ∧ Text.isBlank c = false := by
    intro c hc
    have hnumeric := (Floating.integer_numeric n c hc).1
    rw [Floating.isNumeric, Bool.or_eq_true] at hnumeric
    rcases hnumeric with hdigit | hmark
    · refine ⟨?_, Text.isBlank_of_isDigit hdigit⟩
      rintro rfl
      exact absurd hdigit (by decide)
    · have hmarks : ∀ d ∈ ['.', 'e', '+', '-'], d ≠ ':' ∧ Text.isBlank d = false := by decide
      exact hmarks c (by simpa using hmark)
  have hwrapped : ∀ opening closing : String,
      (∀ c ∈ opening.toList, c ≠ ':' ∧ Text.isBlank c = false) →
      (∀ c ∈ closing.toList, c ≠ ':' ∧ Text.isBlank c = false) →
      ∀ c ∈ (opening ++ Text.integer n ++ closing).toList, c ≠ ':' ∧ Text.isBlank c = false := by
    intro opening closing hopening hclosing
    rw [String.toList_append, String.toList_append]
    exact List.forall_mem_append.mpr
      ⟨List.forall_mem_append.mpr ⟨hopening, hinteger⟩, hclosing⟩
  simp only [integerForms, List.mem_cons, List.not_mem_nil, or_false] at hform
  rcases hform with rfl | rfl | rfl
  · exact hinteger
  · exact hwrapped "(" ")" (by decide) (by decide)
  · exact hwrapped "'" "'" (by decide) (by decide)

/-- The numeral of one whole number is the default that is reported in a form of another one
exactly if their doubles are the same. -/
theorem same_form {m n : ℤ} (hm : m.natAbs < 2 ^ 64) (hn : n.natAbs < 2 ^ 64)
    {form reported : String} (hform : form ∈ integerForms n) (h : Reported form reported) :
    same reported (Text.integer m) = true ↔ Double.ofInt n = Double.ofInt m := by
  have hchars := form_chars hform
  have hplain : Text.integer m ∈ integerForms m := by simp [integerForms]
  have hblank : ∀ c ∈ (Text.integer m).toList, Text.isBlank c = false := fun c hc =>
    (form_chars hplain c hc).2
  have hexpr := h.stripCasts_eq (.of_not_mem fun hcolon => (hchars _ hcolon).1 rfl)
  rw [Text.trim_eq_self fun c hc => (hchars c hc).2] at hexpr
  have hnumber := number?_form (n := n) (by omega) hform
  have hquoted : isQuoted (Text.integer m).toList = false := by
    simpa [isQuoted] using integer_head (c := '\'') (by decide) m
  have hread := Double.read_integer (n := m) (by omega)
  simp only [same, hexpr, Text.trim_eq_self hblank, String.ofList_toList, hquoted, hnumber, hread]
  by_cases heq : form = Text.integer m
  · have hsame : number? form.toList = some (Double.ofInt m) :=
      number?_form (by omega) (heq ▸ hplain)
    rw [hnumber, Option.some.injEq] at hsame
    simp [heq, hsame]
  · have hne : form.toList ≠ (Text.integer m).toList :=
      fun hlist => heq (String.toList_inj.mp hlist)
    simp [hne, Double.same_iff (Double.ofInt_isNearest hn) (Double.ofInt_isNearest hm)]

end DefaultExpr

namespace AlterSession
open DefaultExpr

/-- A session sets no default that is reported already. -/
theorem setDefault_of_reported {σ : Type} (db : Database σ) {run : SessionRun σ} {v : Value}
    {c : Column} {reported : String} (hactive : run.session.activeColumn = .ok c)
    (hdefault : c.defaultExpr = some reported) (h : Reported v.literal reported) :
    ((AlterVerb.setDefault v).apply db).outcome run = (.ok (), run) := by
  have hsame : same reported ("" ++ v.literal ++ "") = true :=
    same_of_reported (by simp) (by simp) h
  have hmet : (AlterVerb.setDefault v).isMet c = true := by
    simpa [AlterVerb.isMet, hdefault] using hsame
  rw [apply_outcome, plan_of_isConstraint rfl, hactive, Except.map, if_pos hmet]
  rfl

/-- The text behind a default is compared as it is, through any casts and any white space, and a
value of any kind is the default that is reported for its literal. So on a server that reports
what it was told, setting a default a second time runs nothing. -/
theorem reported_default {before after : String}
    (hbefore : ∀ c ∈ before.toList, Text.isBlank c = true)
    (hafter : ∀ c ∈ after.toList, Text.isBlank c = true) :
    (∀ s t reported, Reported (Value.text t).literal reported →
      (same reported (before ++ (Value.text s).literal ++ after) = true ↔ s = t)) ∧
    (∀ (v : Value) (reported : String), Reported v.literal reported →
      same reported (before ++ v.literal ++ after) = true) ∧
    ∀ {σ : Type} (db : Database σ) (run : SessionRun σ) (v : Value) (c : Column)
      (reported : String), run.session.activeColumn = .ok c → c.defaultExpr = some reported →
      Reported v.literal reported →
      ((AlterVerb.setDefault v).apply db).outcome run = (.ok (), run) := by
  refine ⟨fun s t reported h => same_text_iff hbefore hafter s h,
    fun v reported h => same_of_reported hbefore hafter h, ?_⟩
  intro σ db run v c reported hactive hdefault h
  exact setDefault_of_reported db hactive hdefault h

def quotation : String := " 'it''s a::b (1)' :: character varying::text\n"

theorem quotation_reported : Reported (Value.text "it's a::b (1)").literal quotation := by
  have hplain : Reported (Value.text "it's a::b (1)").literal
      (" " ++ (Value.text "it's a::b (1)").literal ++ " ") := .plain (by decide) (by decide)
  have hchars : quotation = " " ++ (Value.text "it's a::b (1)").literal ++ " " ++ "::" ++
      " character varying" ++ "::" ++ "text\n" := by decide +kernel
  rw [hchars]
  exact (hplain.cast (by decide)).cast (by decide)

def noting : SessionRun Table :=
  ⟨⟨"users", ⟨"users", [{ name := "note", dataType := "text", defaultExpr := some quotation }],
    none⟩, some "note"⟩, ⟨members, none⟩⟩

theorem quotation_settled :
    same quotation ("\t" ++ (Value.text "it's a::b (1)").literal ++ "") = true ∧
      ¬ same quotation ("\t" ++ (Value.text "It's a::b (1)").literal ++ "") = true ∧
      ((AlterVerb.setDefault (.text "it's a::b (1)")).apply idle).outcome noting =
        (.ok (), noting) := by
  obtain ⟨htext, hvalue, hsession⟩ :=
    @reported_default "\t" "" (by decide) (by decide)
  refine ⟨hvalue _ _ quotation_reported, ?_, ?_⟩
  · rw [htext _ _ _ quotation_reported]
    decide
  · exact hsession idle noting _ _ quotation rfl rfl quotation_reported

/-- A whole number is the default that a server reports for another one if and only if one double
is nearest to both; so they need not be the same number, unless one of them is below two to the
power of 53. A session that is asked for such a number runs nothing. -/
theorem integer_default {n m : Int64} {form reported : String}
    (hform : form ∈ integerForms n.toInt) (h : Reported form reported) :
    (same reported (Value.int m).literal = true ↔
      ∃ x : Double, x.IsNearest n.toInt ∧ x.IsNearest m.toInt) ∧
    (n.toInt.natAbs < 2 ^ 53 ∨ m.toInt.natAbs < 2 ^ 53 →
      (same reported (Value.int m).literal = true ↔ n = m)) ∧
    ∀ {σ : Type} (db : Database σ) (run : SessionRun σ) (c : Column),
      run.session.activeColumn = .ok c → c.defaultExpr = some reported →
      ((AlterVerb.setDefault (.int m)).apply db).outcome run =
        if same reported (Value.int m).literal then (.ok (), run)
        else (change db (.setDefault c.name (Value.int m).literal)).outcome run := by
  have hsize : ∀ k : Int64, k.toInt.natAbs < 2 ^ 64 := by
    intro k
    have := k.le_toInt
    have := k.toInt_lt
    omega
  have hn := Double.ofInt_isNearest (hsize n)
  have hm := Double.ofInt_isNearest (hsize m)
  have hsame : same reported (Value.int m).literal = true ↔
      ∃ x : Double, x.IsNearest n.toInt ∧ x.IsNearest m.toInt := by
    rw [Value.literal, same_form (hsize m) (hsize n) hform h]
    constructor
    · exact fun heq => ⟨_, hn, heq ▸ hm⟩
    · rintro ⟨x, hxn, hxm⟩
      rw [hn.unique hxn, hm.unique hxm]
  refine ⟨hsame, fun hsmall => hsame.trans ⟨?_, ?_⟩, ?_⟩
  · rintro ⟨x, hxn, hxm⟩
    exact Int64.toInt_inj.mp (hxn.eq_of_small hxm hsmall)
  · rintro rfl
    exact ⟨_, hn, hn⟩
  · intro σ db run c hactive hdefault
    have hmet : (AlterVerb.setDefault (.int m)).isMet c = same reported (Value.int m).literal := by
      simp [AlterVerb.isMet, hdefault]
    rw [apply_outcome, plan_of_isConstraint rfl, hactive, Except.map, hmet]
    cases same reported (Value.int m).literal with
    | true => rfl
    | false => simp [performed, AlterVerb.steps, Step.run]

/-- The first two whole numbers that have one double. -/
theorem integer_mistaken : Reported "9007199254740993" "9007199254740993::bigint" ∧
    same "9007199254740993::bigint" (Value.int 9007199254740992).literal = true ∧
    (9007199254740993 : Int64) ≠ 9007199254740992 := by
  have hplain : Reported "9007199254740993" ("" ++ "9007199254740993" ++ "") :=
    .plain (by decide) (by decide)
  have hcast : Reported "9007199254740993" ("" ++ "9007199254740993" ++ "" ++ "::" ++ "bigint") :=
    hplain.cast (by decide)
  have hreported : Reported "9007199254740993" "9007199254740993::bigint" := hcast
  have hform : "9007199254740993" ∈ integerForms (9007199254740993 : Int64).toInt := by
    decide +kernel
  have hdouble : Double.ofInt (9007199254740993 : Int64).toInt =
      Double.ofInt (9007199254740992 : Int64).toInt := by decide +kernel
  refine ⟨hreported, (integer_default hform hreported).1.mpr ⟨_, Double.ofInt_isNearest ?_, ?_⟩,
    by decide⟩
  · decide
  · rw [hdouble]
    exact Double.ofInt_isNearest (by decide)

end AlterSession

end QueryLoom
