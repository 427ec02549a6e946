import QueryLoom.Floating.Numeral
import QueryLoom.Text.Basic
import QueryLoom.Text.Case

/-!
# Default expressions

A server reports a default in its own spelling: with a cast behind it, keywords in lower case,
numbers in its own form, quoted or in parentheses. A reported default is the same as a literal if
the texts are equal once casts are gone; or, unless the literal is quoted text, if both are the
same number or the same word in any case.
-/

set_option autoImplicit false

namespace QueryLoom.DefaultExpr

/-- What stands before and after the last double colon, for a text from its end: both parts come
from the end too. -/
def splitLastCast : List Char → Option (List Char × List Char)
  | [] => none
  | [_] => none
  | c :: d :: cs =>
    if c = ':' && d = ':' then some ([], cs)
    else (splitLastCast (d :: cs)).map fun (tail, head) => (c :: tail, head)

theorem length_of_splitLastCast {cs tail head : List Char}
    (h : splitLastCast cs = some (tail, head)) : head.length < cs.length := by
  fun_induction splitLastCast cs generalizing tail head with
  | case1 => simp at h
  | case2 => simp at h
  | case3 c d cs hc =>
    simp only [Option.some.injEq, Prod.mk.injEq] at h
    obtain ⟨-, rfl⟩ := h
    simp only [List.length_cons]; omega
  | case4 c d cs _ ih =>
    simp only [Option.map_eq_some_iff, Prod.mk.injEq] at h
    obtain ⟨⟨t, r⟩, hs, -, rfl⟩ := h
    have := ih hs
    simp only [List.length_cons] at this ⊢; omega

/-- Takes casts off the end of a text that is given from its end. A double colon before a quote
belongs to quoted text. -/
def stripCastsReversed (cs : List Char) : List Char :=
  match h : splitLastCast cs with
  | none => cs
  | some (tail, head) =>
    if tail.contains '\'' then cs
    else
      have := length_of_splitLastCast h
      have := (List.dropWhile_sublist Text.isBlank (l := head)).length_le
      stripCastsReversed (head.dropWhile Text.isBlank)
termination_by cs.length
decreasing_by omega

def stripCasts (cs : List Char) : List Char := (stripCastsReversed cs.reverse).reverse

def unwrap (opening closing : Char) (cs : List Char) : List Char :=
  match cs with
  | c :: rest =>
    if c = opening then
      match rest.reverse with
      | d :: inner => if d = closing then inner.reverse else cs
      | [] => cs
    else cs
  | [] => cs

def number? (cs : List Char) : Option Double :=
  (Double.read (String.ofList (unwrap '\'' '\'' (unwrap '(' ')' cs)))).toOption

def isQuoted (cs : List Char) : Bool := cs.head? == some '\''

def same (reported literal : String) : Bool :=
  let reported := stripCasts (Text.trim reported.toList)
  let literal := Text.trim literal.toList
  if reported == literal then true
  else if isQuoted literal then false
  else match number? reported, Double.read (String.ofList literal) with
    | some x, .ok y => x.same y
    | _, _ => !isQuoted reported && reported.map Char.toLower == literal.map Char.toLower

end QueryLoom.DefaultExpr
