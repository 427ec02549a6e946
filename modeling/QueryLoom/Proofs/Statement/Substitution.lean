import Mathlib.Data.List.Basic
import QueryLoom.Proofs.Statement.Scan

/-!
# Numbers in place of names

What a statement with names becomes for a server that numbers its parameters. The names are
numbered in the order in which they come first, every other token stays as it is, and from the
numbers and their places the names can be put back. This fails only where a name has no value.
-/

set_option autoImplicit false

namespace QueryLoom.Placeholder

open Template

variable {cs rest : List Char} {ts : List Token} {b : Bindings}

def order (ts : List Token) : List String := (ts.filterMap Token.name?).eraseDups

theorem mem_order {n : String} :
    n ∈ order ts ↔ ∃ cs, Token.name cs ∈ ts ∧ String.ofList cs = n := by
  simp only [order, List.mem_eraseDups, List.mem_filterMap]
  constructor
  · rintro ⟨t, ht, hn⟩
    cases t with
    | name cs => exact ⟨cs, ht, Option.some.inj hn⟩
    | quoted | cast | other => cases hn
  · rintro ⟨cs, hcs, rfl⟩
    exact ⟨.name cs, hcs, rfl⟩

def Token.rendered (f : String → List Char) : Token → List Char
  | .name cs => f (String.ofList cs)
  | t => t.text

theorem rendered_text (t : Token) : t.rendered (fun n => ':' :: n.toList) = t.text := by
  cases t <;> simp [Token.rendered, Token.text]

theorem rendered_numbered (order : List String) (t : Token) :
    t.rendered (fun n => '$' :: Nat.toDigits 10 (order.idxOf n + 1)) = t.numbered order := by
  cases t <;> rfl

def template (ts : List Token) : Template :=
  ts.flatMap fun
    | .name _ => [none]
    | t => t.text.map some

theorem fill_map_some (text : List Char) (t : Template) (texts : List (List Char)) :
    fill (text.map some ++ t) texts = text ++ fill t texts := by
  simpa [lit] using fill_lit_append (String.ofList text) t texts

theorem fill_template (f : String → List Char) (ts : List Token) :
    (template ts).fill ((ts.filterMap Token.name?).map f) = ts.flatMap (Token.rendered f) := by
  unfold template
  induction ts with
  | nil => rfl
  | cons t ts ih =>
    cases t with
    | name cs => simp [Token.name?, Token.rendered, fill, ih]
    | quoted | cast | other =>
      simp only [List.flatMap_cons, List.filterMap_cons, Token.name?, fill_map_some, ih,
        Token.rendered]

/-! ## What follows a number -/

theorem IsQuote.isDigit {q : Char} (h : IsQuote q) : q.isDigit = false := by
  rcases h with rfl | rfl <;> decide

/-- What is no part of a name in a text is no digit in what the text becomes. -/
theorem Lexed.numbered_head (h : Lexed cs ts) (hcs : Text.Stops isNamePart cs)
    (order : List String) : Text.Stops Char.isDigit (ts.flatMap (Token.numbered order)) := by
  cases h with
  | nil => exact Text.stops_nil _
  | quoted hq => exact Text.stops_cons hq.isDigit _
  | unclosed hq => exact Text.stops_cons hq.isDigit _
  | cast => exact Text.stops_cons rfl _
  | name => exact Text.stops_cons (by decide) _
  | @other c rest ts =>
    have hpart : isNamePart c = false := hcs c rfl
    refine Text.stops_cons ?_ _
    rw [Bool.eq_false_iff] at hpart ⊢
    exact mt isNamePart_of_isDigit hpart

/-- Behind a name the text goes on with what is no part of a name. -/
theorem Lexed.stops_behind_name (h : Lexed cs ts) {front back : List Token} {n : List Char}
    (hts : ts = front ++ .name n :: back) (order : List String) :
    Text.Stops Char.isDigit (back.flatMap (Token.numbered order)) := by
  subst hts
  obtain ⟨text, htext⟩ := h.of_append
  obtain ⟨rest, hrest, hstops⟩ := htext.tail
  exact hrest.numbered_head (hstops n rfl) order

/-! ## The values -/

theorem map_get?_filterMap {ks : List String} (h : ∀ k ∈ ks, b.get? k ≠ none) :
    ks.map b.get? = (ks.filterMap b.get?).map some := by
  induction ks with
  | nil => rfl
  | cons k ks ih =>
    obtain ⟨v, hv⟩ := Option.ne_none_iff_exists'.mp (h k (by simp))
    simp [hv, ih fun j hj => h j (List.mem_cons_of_mem _ hj)]

/-- The first name without a value is reported. -/
theorem mapM_value_error {ks : List String} {n : String}
    (h : ks.find? (fun k => (b.get? k).isNone) = some n) :
    ks.mapM (value b) = .error (.usage (.unboundPlaceholder n)) := by
  induction ks with
  | nil => simp at h
  | cons k ks ih =>
    rw [List.mapM_cons, value]
    cases hk : b.get? k with
    | none =>
      obtain rfl : k = n := by simpa [hk] using h
      rfl
    | some v =>
      rw [ih (by simpa [hk] using h)]
      rfl

/-! ## Substitution -/

/-- The statement with these tokens, numbered, with the values of its names. -/
structure Positional.Substitutes (p : Positional) (statement : String) (ts : List Token)
    (b : Bindings) : Prop where
  params : (order ts).map b.get? = p.params.map some
  sql : p.sql.toList = ts.flatMap (Token.numbered (order ts))
  ends : ∀ front n back, ts = front ++ .name n :: back →
    Text.Stops Char.isDigit (back.flatMap (Token.numbered (order ts)))
  /-- With the names back in the places of the numbers it is the statement again. -/
  restored : ∃ places : List (Fin (order ts).length),
    p.sql.toList = (template ts).fill
      (places.map fun i : Fin (order ts).length => '$' :: Nat.toDigits 10 (i.val + 1)) ∧
    statement.toList = (template ts).fill
      (places.map fun i : Fin (order ts).length => ':' :: (order ts)[i].toList)

def places (ts : List Token) : List (Fin (order ts).length) :=
  (ts.filterMap Token.name?).attach.map fun n =>
    ⟨(order ts).idxOf n.1, List.idxOf_lt_length_iff.mpr (List.mem_eraseDups.mpr n.2)⟩

theorem map_places {β : Type} {f : Fin (order ts).length → β} {g : String → β}
    (h : ∀ n ∈ order ts, ∀ i : Fin (order ts).length, i.val = (order ts).idxOf n → f i = g n) :
    (places ts).map f = (ts.filterMap Token.name?).map g := by
  have hattach : (ts.filterMap Token.name?).attach.map (fun n => g n.1) =
      (ts.filterMap Token.name?).map g := List.attach_map_val
  rw [places, List.map_map, ← hattach]
  refine List.map_congr_left fun n _ => ?_
  exact h n.1 (List.mem_eraseDups.mpr n.2) _ rfl

/-- The tokens decide, whether or not touching regions are joined. -/
theorem toPositional_eq {sql : String} (h : Lexed sql.toList ts) (b : Bindings) :
    toPositional sql b = ((order ts).mapM (value b)).map fun params =>
      ⟨String.ofList (ts.flatMap (Token.numbered (order ts))), params⟩ := by
  have hnames : (lex sql.toList).filterMap Token.name? = ts.filterMap Token.name? := by
    simp only [List.filterMap_eq_flatMap_toList]
    exact h.flatMap_lex fun _ _ => rfl
  have horder : names (lex sql.toList) = order ts := by rw [names_eq, hnames, order]
  have hnumbered : (lex sql.toList).flatMap (Token.numbered (order ts)) =
      ts.flatMap (Token.numbered (order ts)) := h.flatMap_lex fun _ _ => rfl
  rw [toPositional, horder, hnumbered]
  cases (order ts).mapM (value b) <;> rfl

theorem substitutes_of_bound {sql : String} (h : Lexed sql.toList ts)
    (hbound : ∀ n ∈ order ts, b.get? n ≠ none) :
    ∃ p, toPositional sql b = .ok p ∧ p.Substitutes sql ts b := by
  have hvalues := map_get?_filterMap hbound
  refine ⟨_, by rw [toPositional_eq h, Template.mapM_value hvalues]; rfl, hvalues, ?_,
    fun front n back hts => h.stops_behind_name hts (order ts), places ts, ?_, ?_⟩
  · simp
  · rw [map_places (g := fun n => '$' :: Nat.toDigits 10 ((order ts).idxOf n + 1)), fill_template,
      funext (rendered_numbered (order ts)), String.toList_ofList]
    rintro n - i hi
    rw [hi]
  · rw [map_places (g := fun n => ':' :: n.toList), fill_template, funext rendered_text,
      h.flatMap_text]
    rintro n hn i hi
    simp [hi, List.getElem_idxOf]

/-- A statement divides into tokens in one way. To number its names fails if and only if one of
them has no value, and reports the first of these. Otherwise the parameters are the values of the
distinct names in the order in which they come first, each name has become its number in this
order, and all else has stayed. -/
theorem toPositional_substitutes (sql : String) (b : Bindings) :
    ∃ ts, (∀ us, Lexed sql.toList us ↔ us = ts) ∧
      ((∃ e, toPositional sql b = .error (.usage e)) ↔
        ∃ cs, Token.name cs ∈ ts ∧ b.get? (String.ofList cs) = none) ∧
      (∀ n, (order ts).find? (fun n => (b.get? n).isNone) = some n →
        toPositional sql b = .error (.usage (.unboundPlaceholder n))) ∧
      ((∀ cs, Token.name cs ∈ ts → b.get? (String.ofList cs) ≠ none) →
        ∃ p, toPositional sql b = .ok p ∧ p.Substitutes sql ts b) := by
  obtain ⟨ts, h⟩ := exists_lexed sql.toList
  have hunbound : ∀ n, (order ts).find? (fun n => (b.get? n).isNone) = some n →
      toPositional sql b = .error (.usage (.unboundPlaceholder n)) := by
    intro n hn
    rw [toPositional_eq h, mapM_value_error hn]
    rfl
  have hbound : (∀ cs, Token.name cs ∈ ts → b.get? (String.ofList cs) ≠ none) →
      ∃ p, toPositional sql b = .ok p ∧ p.Substitutes sql ts b := by
    intro hall
    refine substitutes_of_bound h fun n hn => ?_
    obtain ⟨cs, hcs, rfl⟩ := mem_order.mp hn
    exact hall cs hcs
  refine ⟨ts, fun us => by rw [lexed_iff, h.join_lex], ⟨?_, ?_⟩, hunbound, hbound⟩
  · rintro ⟨e, he⟩
    apply Classical.byContradiction
    intro hnone
    obtain ⟨p, hp, -⟩ := hbound fun cs hcs hvalue => hnone ⟨cs, hcs, hvalue⟩
    rw [he] at hp
    cases hp
  · rintro ⟨cs, hcs, hvalue⟩
    have hmem : String.ofList cs ∈ order ts := mem_order.mpr ⟨cs, hcs, rfl⟩
    have hfound : ((order ts).find? fun n => (b.get? n).isNone).isSome = true :=
      List.find?_isSome.mpr ⟨_, hmem, by simp [hvalue]⟩
    obtain ⟨n, hn⟩ := Option.isSome_iff_exists.mp hfound
    exact ⟨_, hunbound n hn⟩

end QueryLoom.Placeholder
