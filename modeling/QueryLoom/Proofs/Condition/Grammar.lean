import QueryLoom.Chain.Operator
import QueryLoom.Proofs.Condition.Token

/-!
# The grammar of conditions

A condition is a disjunction of conjunctions of factors, so AND binds tighter than OR; a factor is
a comparison or a condition in parentheses. Disjunctions and conjunctions are as long as they can
be. The grammar is unambiguous: a text is read in at most one way.
-/

set_option autoImplicit false

namespace QueryLoom

inductive Condition.Term where
  | column (name : String)
  | number (n : Nat)
  | placeholder (k : String)
  | null
  deriving DecidableEq, Repr

structure Condition.Test where
  left : Condition.Term
  operator : Operator
  right : Condition.Term
  deriving DecidableEq, Repr

inductive Condition where
  | test (t : Condition.Test)
  | all (cs : List Condition)
  | any (cs : List Condition)
  deriving Repr

theorem Operator.ofText?_text (op : Operator) : Operator.ofText? op.text = some op := by
  cases op <;> decide

theorem Operator.text_injective {op op' : Operator} (h : op.text = op'.text) : op = op' := by
  have hsome := op.ofText?_text
  rw [h, op'.ofText?_text] at hsome
  exact (Option.some.inj hsome).symm

namespace Condition

/-! ## Truth -/

/-- Two numbers are equal or they are not; of everything else an assignment tells. -/
def Test.holds (v : Test → Prop) (t : Test) : Prop :=
  match t with
  | ⟨.number m, .equal, .number n⟩ => m = n
  | t => v t

mutual

def holds (v : Test → Prop) : Condition → Prop
  | .test t => t.holds v
  | .all cs => allHold v cs
  | .any cs => someHolds v cs

def allHold (v : Test → Prop) : List Condition → Prop
  | [] => True
  | c :: cs => c.holds v ∧ allHold v cs

def someHolds (v : Test → Prop) : List Condition → Prop
  | [] => False
  | c :: cs => c.holds v ∨ someHolds v cs

end

variable {v : Test → Prop} {cs : List Condition}

@[simp] theorem holds_test {t : Test} : (test t).holds v ↔ t.holds v := Iff.rfl

@[simp] theorem holds_all : (all cs).holds v ↔ ∀ c ∈ cs, c.holds v := by
  rw [holds]
  induction cs with
  | nil => simp [allHold]
  | cons c cs ih => simp [allHold, ih]

@[simp] theorem holds_any : (any cs).holds v ↔ ∃ c ∈ cs, c.holds v := by
  rw [holds]
  induction cs with
  | nil => simp [someHolds]
  | cons c cs ih => simp [someHolds, ih]

/-! ## Reading -/

def Token.left? : Token → Option Term
  | .word s => some (.column s)
  | .number n => some (.number n)
  | _ => none

def Token.right? (t : Token) : Option Term :=
  match t with
  | .placeholder k => some (.placeholder k)
  | .number n => some (.number n)
  | t => if t.keyword? = some .null then some .null else none

inductive Spells : List Token → Operator → Prop
  | symbol (op : Operator) : Spells [.symbol op.text] op
  | like {t : Token} (h : t.keyword? = some .like) : Spells [t] .like
  | notLike {t u : Token} (h : t.keyword? = some .not) (h' : u.keyword? = some .like) :
      Spells [t, u] .notLike
  | is {t : Token} (h : t.keyword? = some .is) : Spells [t] .is
  | isNot {t u : Token} (h : t.keyword? = some .is) (h' : u.keyword? = some .not) :
      Spells [t, u] .isNot

inductive Level where
  | factor
  | conjunction
  | disjunction

inductive Parses : Level → List Token → Condition → Prop
  | test {t u : Token} {ops : List Token} {left right : Term} {op : Operator}
      (hl : t.left? = some left) (hop : Spells ops op) (hr : u.right? = some right) :
      Parses .factor (t :: ops ++ [u]) (.test ⟨left, op, right⟩)
  | group {ts : List Token} {c : Condition} (h : Parses .disjunction ts c) :
      Parses .factor (.opening :: ts ++ [.closing]) c
  | lastFactor {ts : List Token} {c : Condition} (h : Parses .factor ts c) :
      Parses .conjunction ts (.all [c])
  | and {ts us : List Token} {t : Token} {c : Condition} {cs : List Condition}
      (h : Parses .factor ts c) (ht : t.keyword? = some .and)
      (hs : Parses .conjunction us (.all cs)) : Parses .conjunction (ts ++ t :: us) (.all (c :: cs))
  | lastConjunction {ts : List Token} {c : Condition} (h : Parses .conjunction ts c) :
      Parses .disjunction ts (.any [c])
  | or {ts us : List Token} {t : Token} {c : Condition} {cs : List Condition}
      (h : Parses .conjunction ts c) (ht : t.keyword? = some .or)
      (hs : Parses .disjunction us (.any cs)) : Parses .disjunction (ts ++ t :: us) (.any (c :: cs))

/-! ## Unambiguity -/

/-- The tokens that follow do not go on with a part of this level. -/
def Level.Ends : Level → List Token → Prop
  | .factor, _ => True
  | .conjunction, us => ∀ t, us.head? = some t → t.keyword? ≠ some .and
  | .disjunction, us =>
    ∀ t, us.head? = some t → t.keyword? ≠ some .and ∧ t.keyword? ≠ some .or

theorem Level.Ends.weaken {us : List Token} (h : Level.disjunction.Ends us) :
    Level.conjunction.Ends us := fun t ht => (h t ht).1

/-- A conjunction ends in front of OR. -/
theorem ends_or {t : Token} (ht : t.keyword? = some .or) (us : List Token) :
    Level.conjunction.Ends (t :: us) := by
  intro u hu
  cases hu
  rw [ht]
  decide

/-- A condition ends in front of a closing parenthesis. -/
theorem ends_closing (us : List Token) : Level.disjunction.Ends (.closing :: us) := by
  intro u hu
  cases hu
  exact ⟨by decide, by decide⟩

theorem right?_keyword {t : Token} {r : Term} (h : t.right? = some r) :
    t.keyword? = none ∨ t.keyword? = some .null := by
  cases t with
  | word s =>
    by_cases hnull : (Token.word s).keyword? = some .null
    · exact Or.inr hnull
    · simp [Token.right?, hnull] at h
  | _ => exact Or.inl rfl

theorem spells_unique {ts ts' us us' : List Token} {t t' : Token} {r r' : Term}
    {op op' : Operator} (h : Spells ts op) (h' : Spells ts' op') (hr : t.right? = some r)
    (hr' : t'.right? = some r') (heq : ts ++ t :: us = ts' ++ t' :: us') :
    ts = ts' ∧ op = op' := by
  have hk := right?_keyword hr
  have hk' := right?_keyword hr'
  have htext : ∀ s : String, (Token.symbol s).keyword? = none := fun _ => rfl
  cases h with
  | symbol op =>
    cases h' with
    | symbol op' =>
      have hsame : op.text = op'.text := by simpa using congrArg List.head? heq
      exact ⟨by rw [hsame], Operator.text_injective hsame⟩
    | _ => grind
  | like => cases h' <;> grind
  | notLike => cases h' <;> grind
  | is => cases h' <;> grind
  | isNot => cases h' <;> grind

/-- Of two texts of one level that begin two readings of the same tokens, both where the level
ends, neither is longer. -/
theorem parses_unique {l : Level} {ts : List Token} {c : Condition} (h : Parses l ts c) :
    ∀ {ts' us us' : List Token} {c' : Condition}, Parses l ts' c' → ts ++ us = ts' ++ us' →
      l.Ends us → l.Ends us' → ts = ts' ∧ c = c' := by
  induction h with
  | @test t u ops left right op hl hop hr =>
    intro ts' us us' c' h' heq _ _
    cases h' with
    | @test t' u' ops' left' right' op' hl' hop' hr' =>
      simp only [List.cons_append, List.append_assoc, List.cons.injEq, List.nil_append] at heq
      obtain ⟨rfl, heq⟩ := heq
      obtain ⟨rfl, rfl⟩ := spells_unique hop hop' hr hr' heq
      have hu := List.append_cancel_left heq
      simp only [List.cons.injEq] at hu
      obtain ⟨rfl, -⟩ := hu
      rw [hl] at hl'
      rw [hr] at hr'
      cases hl'
      cases hr'
      exact ⟨rfl, rfl⟩
    | group h' =>
      simp only [List.cons_append, List.cons.injEq] at heq
      rw [heq.1] at hl
      cases hl
  | group h ih =>
    intro ts' us us' c' h' heq _ _
    cases h' with
    | test hl' hop' hr' =>
      simp only [List.cons_append, List.cons.injEq] at heq
      rw [← heq.1] at hl'
      cases hl'
    | group h' =>
      simp only [List.cons_append, List.append_assoc, List.cons.injEq, true_and,
        List.nil_append] at heq
      obtain ⟨rfl, rfl⟩ := ih h' heq (ends_closing _) (ends_closing _)
      exact ⟨rfl, rfl⟩
  | lastFactor h ih =>
    intro ts' us us' c' h' heq hend _
    cases h' with
    | lastFactor h' =>
      obtain ⟨rfl, rfl⟩ := ih h' heq trivial trivial
      exact ⟨rfl, rfl⟩
    | and h' ht' hs' =>
      rw [List.append_assoc, List.cons_append] at heq
      obtain ⟨rfl, rfl⟩ := ih h' heq trivial trivial
      exact absurd ht' (hend _ (by rw [List.append_cancel_left heq]; rfl))
  | @and ts us t c cs h ht hs ih ihs =>
    intro ts' vs vs' c' h' heq hend hend'
    rw [List.append_assoc, List.cons_append] at heq
    cases h' with
    | lastFactor h' =>
      obtain ⟨rfl, rfl⟩ := ih h' heq trivial trivial
      exact absurd ht (hend' _ (by rw [← List.append_cancel_left heq]; rfl))
    | and h' ht' hs' =>
      rw [List.append_assoc, List.cons_append] at heq
      obtain ⟨rfl, rfl⟩ := ih h' heq trivial trivial
      obtain ⟨rfl, hrest⟩ := List.cons.inj (List.append_cancel_left heq)
      obtain ⟨rfl, hcs⟩ := ihs hs' hrest hend hend'
      cases hcs
      exact ⟨rfl, rfl⟩
  | lastConjunction h ih =>
    intro ts' us us' c' h' heq hend hend'
    cases h' with
    | lastConjunction h' =>
      obtain ⟨rfl, rfl⟩ := ih h' heq hend.weaken hend'.weaken
      exact ⟨rfl, rfl⟩
    | or h' ht' hs' =>
      rw [List.append_assoc, List.cons_append] at heq
      obtain ⟨rfl, rfl⟩ := ih h' heq hend.weaken (ends_or ht' _)
      exact absurd ht' (hend _ (by rw [List.append_cancel_left heq]; rfl)).2
  | @or ts us t c cs h ht hs ih ihs =>
    intro ts' vs vs' c' h' heq hend hend'
    rw [List.append_assoc, List.cons_append] at heq
    cases h' with
    | lastConjunction h' =>
      obtain ⟨rfl, rfl⟩ := ih h' heq (ends_or ht _) hend'.weaken
      exact absurd ht (hend' _ (by rw [← List.append_cancel_left heq]; rfl)).2
    | or h' ht' hs' =>
      rw [List.append_assoc, List.cons_append] at heq
      obtain ⟨rfl, rfl⟩ := ih h' heq (ends_or ht _) (ends_or ht' _)
      obtain ⟨rfl, hrest⟩ := List.cons.inj (List.append_cancel_left heq)
      obtain ⟨rfl, hcs⟩ := ihs hs' hrest hend hend'
      cases hcs
      exact ⟨rfl, rfl⟩

/-! ## Clauses -/

def Reads (text : String) (c : Condition) : Prop :=
  ∃ t ts, lex text.toList = t :: ts ∧ t.keyword? = some .where_ ∧ Parses .disjunction ts c

/-- A text is read in at most one way. -/
theorem Reads.unique {text : String} {c c' : Condition} (h : Reads text c) (h' : Reads text c') :
    c = c' := by
  obtain ⟨t, ts, hlex, -, hparse⟩ := h
  obtain ⟨t', ts', hlex', -, hparse'⟩ := h'
  obtain ⟨rfl, rfl⟩ := List.cons.inj (hlex.symm.trans hlex')
  have hend : Level.disjunction.Ends [] := fun _ h => nomatch h
  have hsame : ts ++ [] = ts ++ [] := rfl
  exact (parses_unique hparse hparse' hsame hend hend).2

end Condition

end QueryLoom
