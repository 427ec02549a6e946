import QueryLoom.Proofs.Table.Literal
import QueryLoom.Proofs.Text.Spacing
import QueryLoom.Table.DefaultExpr

/-!
# Literals as default expressions

In a literal a colon stands inside quoted text only, so a quote comes behind it. No cast can then
be taken off the end of a literal, and a server that reports one as it was given reports the same
default. Casts that a server puts behind an expression are all taken off.
-/

set_option autoImplicit false

namespace QueryLoom

inductive ColonsQuoted : List Char → Prop
  | nil : ColonsQuoted []
  | cons {c : Char} {cs : List Char} (hc : c = ':' → '\'' ∈ cs) (h : ColonsQuoted cs) :
      ColonsQuoted (c :: cs)

namespace ColonsQuoted

variable {cs ds : List Char}

theorem of_not_mem (h : ':' ∉ cs) : ColonsQuoted cs := by
  induction cs with
  | nil => exact .nil
  | cons c cs ih =>
    simp only [List.mem_cons, not_or] at h
    exact .cons (fun hc => absurd hc.symm h.1) (ih h.2)

/-- What ends with a quote may have colons anywhere. -/
theorem of_quote (cs : List Char) : ColonsQuoted (cs ++ ['\'']) := by
  induction cs with
  | nil => exact of_not_mem (by decide)
  | cons c cs ih => exact .cons (fun _ => by simp) ih

theorem append (hcs : ColonsQuoted cs) (hds : ColonsQuoted ds) : ColonsQuoted (cs ++ ds) := by
  induction hcs with
  | nil => exact hds
  | cons hc _ ih => exact .cons (fun heq => List.mem_append_left ds (hc heq)) ih

theorem dropWhile (h : ColonsQuoted cs) (p : Char → Bool) : ColonsQuoted (cs.dropWhile p) := by
  induction h with
  | nil => exact .nil
  | cons hc h ih =>
    rw [List.dropWhile_cons]
    split
    · exact ih
    · exact .cons hc h

theorem of_append (h : ColonsQuoted (cs ++ ds)) (hds : '\'' ∉ ds) : ColonsQuoted cs := by
  induction cs with
  | nil => exact .nil
  | cons c cs ih =>
    cases h with
    | cons hc h => exact .cons (fun heq => (List.mem_append.mp (hc heq)).resolve_right hds) (ih h)

theorem quote_mem (h : ColonsQuoted (cs ++ ':' :: ds)) : '\'' ∈ ds := by
  induction cs with
  | nil =>
    cases h with
    | cons hc _ => exact hc rfl
  | cons c cs ih =>
    cases h with
    | cons _ h => exact ih h

theorem trim (h : ColonsQuoted cs) : ColonsQuoted (Text.trim cs) := by
  have hstart : ColonsQuoted (Text.trimStart cs) := h.dropWhile Text.isBlank
  have hsplit := List.takeWhile_append_dropWhile (p := Text.isBlank)
    (l := (Text.trimStart cs).reverse)
  rw [← List.reverse_inj, List.reverse_append, List.reverse_reverse] at hsplit
  rw [← hsplit] at hstart
  apply hstart.of_append
  intro hmem
  have hblank := List.all_eq_true.mp (List.all_takeWhile (p := Text.isBlank)) _
    (List.mem_reverse.mp hmem)
  exact absurd hblank (by decide)

/-- In an inert text, colons are quoted. -/
theorem of_inert (h : Inert cs) : ColonsQuoted cs := by
  induction h with
  | nil => exact .nil
  | plain hc _ ih =>
    obtain ⟨-, -, hcolon⟩ := hc _ List.mem_cons_self
    exact .cons (fun heq => absurd heq hcolon) ih
  | @quoted seg _ _ _ ih => simpa using (of_quote ('\'' :: seg)).append ih

end ColonsQuoted

namespace DefaultExpr

theorem splitLastCast_eq {cs tail head : List Char} (h : splitLastCast cs = some (tail, head)) :
    cs = tail ++ ':' :: ':' :: head := by
  fun_induction splitLastCast cs generalizing tail head with
  | case1 => cases h
  | case2 => cases h
  | case3 c d cs hc =>
    cases h
    obtain ⟨hc, hd⟩ : c = ':' ∧ d = ':' := by simpa using hc
    rw [hc, hd]
    rfl
  | case4 c d cs _ ih =>
    obtain ⟨⟨t, r⟩, hs, heq⟩ := Option.map_eq_some_iff.mp h
    cases heq
    rw [ih hs]
    rfl

theorem stripCasts_eq {cs : List Char} (h : ColonsQuoted cs) : stripCasts cs = cs := by
  have hreversed : stripCastsReversed cs.reverse = cs.reverse := by
    rw [stripCastsReversed]
    split
    · rfl
    · rename_i tail head hsplit
      have hcs := congrArg List.reverse (splitLastCast_eq hsplit)
      rw [List.reverse_reverse] at hcs
      rw [hcs] at h
      have hquote : '\'' ∈ tail := by
        have hsuffix : ColonsQuoted ((head.reverse ++ [':']) ++ ':' :: tail.reverse) := by
          simpa using h
        exact List.mem_reverse.mp hsuffix.quote_mem
      rw [if_pos (by simpa using hquote)]
  rw [stripCasts, hreversed, List.reverse_reverse]

/-! ## Casts -/

theorem splitLastCast_cast (tail head : List Char) (htail : ':' ∉ tail) :
    splitLastCast (tail ++ ':' :: ':' :: head) = some (tail, head) := by
  induction tail with
  | nil => simp [splitLastCast]
  | cons c tail ih =>
    simp only [List.mem_cons, not_or] at htail
    obtain ⟨d, ds, hds⟩ := List.exists_cons_of_ne_nil
      (show tail ++ ':' :: ':' :: head ≠ [] by simp)
    have hrest := ih htail.2
    rw [hds] at hrest
    rw [List.cons_append, hds, splitLastCast, if_neg (by simp [Ne.symm htail.1]), hrest]
    rfl

theorem stripCastsReversed_of_split {cs tail head : List Char}
    (h : splitLastCast cs = some (tail, head)) (hquote : '\'' ∉ tail) :
    stripCastsReversed cs = stripCastsReversed (head.dropWhile Text.isBlank) := by
  rw [stripCastsReversed]
  split
  · rename_i hnone
    rw [h] at hnone
    cases hnone
  · rename_i tail' head' hsome
    rw [h] at hsome
    cases hsome
    rw [if_neg (by simpa using hquote)]

theorem stripCasts_cast {type : List Char} (htype : ∀ c ∈ type, c ≠ '\'' ∧ c ≠ ':')
    (expr : List Char) :
    stripCasts (expr ++ ':' :: ':' :: type) = stripCasts (Text.trimEnd expr) := by
  have hcolon : ':' ∉ type.reverse := fun h => (htype _ (List.mem_reverse.mp h)).2 rfl
  have hquote : '\'' ∉ type.reverse := fun h => (htype _ (List.mem_reverse.mp h)).1 rfl
  have hreverse : (expr ++ ':' :: ':' :: type).reverse =
      type.reverse ++ ':' :: ':' :: expr.reverse := by simp
  rw [stripCasts, hreverse, stripCastsReversed_of_split (splitLastCast_cast _ _ hcolon) hquote,
    stripCasts, Text.trimEnd, List.reverse_reverse]

/-- What a server reports for a default: the expression with casts behind it, and white space
anywhere around them. The name of a type has no quote and no colon in it. -/
inductive Reported (expr : String) : String → Prop
  | plain {before after : String} (hbefore : ∀ c ∈ before.toList, Text.isBlank c = true)
      (hafter : ∀ c ∈ after.toList, Text.isBlank c = true) :
      Reported expr (before ++ expr ++ after)
  | cast {reported type : String} (htype : ∀ c ∈ type.toList, c ≠ '\'' ∧ c ≠ ':')
      (h : Reported expr reported) : Reported expr (reported ++ "::" ++ type)

/-- Without casts and white space, the expression is left. -/
theorem Reported.stripCasts_eq {expr reported : String} (h : Reported expr reported)
    (hexpr : ColonsQuoted expr.toList) :
    stripCasts (Text.trim reported.toList) = Text.trim expr.toList := by
  induction h with
  | plain hbefore hafter =>
    rw [String.toList_append, String.toList_append, Text.trim_surrounded hbefore hafter,
      DefaultExpr.stripCasts_eq hexpr.trim]
  | @cast reported type htype _ ih =>
    have hcolon : Text.isBlank ':' = false := by decide
    have hchars : (reported ++ "::" ++ type).toList =
        reported.toList ++ ':' :: ':' :: type.toList := by simp
    have hend := Text.trimEnd_append_cons hcolon [] type.toList
    have htrim : Text.trim (reported ++ "::" ++ type).toList =
        Text.trimStart reported.toList ++ ':' :: ':' :: Text.trimEnd type.toList := by
      rw [List.nil_append] at hend
      rw [hchars, Text.trim, Text.trimStart_append_cons hcolon, Text.trimEnd_append_cons hcolon,
        hend, List.nil_append]
    have htype' : ∀ c ∈ Text.trimEnd type.toList, c ≠ '\'' ∧ c ≠ ':' := by
      intro c hc
      apply htype c
      exact List.mem_reverse.mp ((List.dropWhile_sublist _).mem (List.mem_reverse.mp hc))
    rw [htrim, stripCasts_cast htype', ← ih]
    rfl

end DefaultExpr

/-- A literal that is reported as it was given is the default that was asked for. -/
theorem DefaultExpr.same_literal (v : Value) : same v.literal v.literal = true := by
  have htrim := (ColonsQuoted.of_inert v.literal_inert).trim
  simp [same, stripCasts_eq htrim]

end QueryLoom
