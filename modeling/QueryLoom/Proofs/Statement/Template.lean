import QueryLoom.Placeholder
import QueryLoom.Proofs.Text.Collapse

/-!
# Statements with holes

A template is a statement without the names of its placeholders. Filled with the names it is the
statement of a client, filled with numbers it is the statement of a server. White space may be
collapsed before or after it is filled, and the names come back when a filled one is scanned.
-/

set_option autoImplicit false

namespace QueryLoom

abbrev Template := List (Option Char)

namespace Template

def lit (s : String) : Template := s.toList.map some

def holes (t : Template) : Nat := t.count none

def fill : Template → List (List Char) → List Char
  | [], _ => []
  | some c :: t, texts => c :: fill t texts
  | none :: t, [] => fill t []
  | none :: t, text :: texts => text ++ fill t texts

@[simp] theorem lit_append (s s' : String) : lit (s ++ s') = lit s ++ lit s' := by simp [lit]

@[simp] theorem holes_append (t u : Template) : holes (t ++ u) = holes t + holes u := by
  simp [holes]

@[simp] theorem holes_lit (s : String) : holes (lit s) = 0 := by
  simp [holes, lit, List.count_eq_zero]

@[simp] theorem holes_cons_some (c : Char) (t : Template) : holes (some c :: t) = holes t := by
  simp [holes]

@[simp] theorem holes_cons_none (t : Template) : holes (none :: t) = holes t + 1 := by
  simp [holes]

theorem fill_lit_append (s : String) (t : Template) (texts : List (List Char)) :
    fill (lit s ++ t) texts = s.toList ++ fill t texts := by
  unfold lit
  induction s.toList with
  | nil => rfl
  | cons c cs ih => simp [fill, ih]

@[simp] theorem fill_lit (s : String) (texts : List (List Char)) :
    fill (lit s) texts = s.toList := by
  simpa [fill] using fill_lit_append s [] texts

/-- The texts for two templates in a row are the texts for the one and then for the other. -/
theorem fill_append (t u : Template) {texts : List (List Char)} (more : List (List Char))
    (h : texts.length = holes t) : fill (t ++ u) (texts ++ more) = fill t texts ++ fill u more := by
  induction t generalizing texts with
  | nil =>
    rw [List.length_eq_zero_iff.mp h]
    rfl
  | cons x t ih =>
    cases x with
    | some c => simp [fill, ih (by simpa using h)]
    | none =>
      cases texts with
      | nil => simp at h
      | cons text texts => simp [fill, ih (by simpa using h)]

/-! ## White space -/

/-- A template is collapsed like a text; a hole belongs to a word. -/
def collapseFrom (p : Text.Position) (t : Template) : Template :=
  Text.collapseFrom (fun x => x.any Text.isBlank) (some ' ') p t

def collapse (t : Template) : Template := t.collapseFrom .before

theorem holes_collapseFrom (p : Text.Position) (t : Template) :
    (t.collapseFrom p).holes = t.holes := by
  unfold collapseFrom
  induction t generalizing p with
  | nil => simp
  | cons x t ih =>
    cases x with
    | some c =>
      by_cases hc : Text.isBlank c = true <;> cases p <;> simp [Text.collapseFrom, hc, ih]
    | none => cases p <;> simp [Text.collapseFrom, ih]

theorem holes_collapse (t : Template) : t.collapse.holes = t.holes := holes_collapseFrom .before t

def IsWord (text : List Char) : Prop := text ≠ [] ∧ ∀ c ∈ text, Text.isBlank c = false

theorem collapseFrom_word_append {text : List Char} (h : ∀ c ∈ text, Text.isBlank c = false)
    (rest : List Char) :
    Text.collapseFrom Text.isBlank ' ' .inside (text ++ rest) =
      text ++ Text.collapseFrom Text.isBlank ' ' .inside rest := by
  induction text with
  | nil => rfl
  | cons c text ih =>
    simp [Text.collapseFrom, h c (by simp), ih fun d hd => h d (List.mem_cons_of_mem _ hd)]

theorem fill_collapseFrom (p : Text.Position) (t : Template) {texts : List (List Char)}
    (hw : ∀ text ∈ texts, IsWord text) (hn : texts.length = holes t) :
    (t.collapseFrom p).fill texts = Text.collapseFrom Text.isBlank ' ' p (t.fill texts) := by
  unfold collapseFrom
  induction t generalizing p texts with
  | nil => simp [fill]
  | cons x t ih =>
    cases x with
    | some c =>
      have hrest := fun q => ih q hw (by simpa using hn)
      by_cases hc : Text.isBlank c = true <;>
        cases p <;> simp [Text.collapseFrom, hc, fill, hrest]
    | none =>
      cases texts with
      | nil => simp at hn
      | cons text texts =>
        have hrest := ih .inside (fun u hu => hw u (List.mem_cons_of_mem _ hu)) (by simpa using hn)
        obtain ⟨hne, hword⟩ := hw text (by simp)
        obtain ⟨c, cs, rfl⟩ := List.exists_cons_of_ne_nil hne
        have hcs : ∀ d ∈ cs, Text.isBlank d = false := fun d hd =>
          hword d (List.mem_cons_of_mem _ hd)
        have hc := hword c (by simp)
        cases p <;>
          simp [Text.collapseFrom, fill, hc, hrest, collapseFrom_word_append hcs]

theorem fill_collapse (t : Template) {texts : List (List Char)}
    (hw : ∀ text ∈ texts, IsWord text) (hn : texts.length = holes t) :
    t.collapse.fill texts = Text.collapse (t.fill texts) := by
  rw [Text.collapse_eq_collapseFrom, collapse, fill_collapseFrom .before t hw hn]

end Template

end QueryLoom
