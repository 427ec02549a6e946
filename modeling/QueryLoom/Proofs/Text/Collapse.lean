import QueryLoom.Text.Basic

/-!
# Collapsing as one scan

A text is collapsed from left to right. Blank space before the first word is dropped; blank space
after a word is held back until the next word begins and is then written as one space. The scan
is stated for any alphabet, since texts with holes are collapsed by it too.
-/

set_option autoImplicit false

namespace QueryLoom.Text

inductive Position where
  | before
  | inside
  | after
  deriving DecidableEq, Repr

section Scan

variable {α : Type} (blank : α → Bool) (space : α)

def collapseFrom : Position → List α → List α
  | _, [] => []
  | .before, c :: cs => if blank c then collapseFrom .before cs else c :: collapseFrom .inside cs
  | .inside, c :: cs => if blank c then collapseFrom .after cs else c :: collapseFrom .inside cs
  | .after, c :: cs =>
    if blank c then collapseFrom .after cs else space :: c :: collapseFrom .inside cs

@[simp] theorem collapseFrom_nil (p : Position) : collapseFrom blank space p [] = [] := by
  cases p <;> rfl

variable {blank space}

/-- The word that a scan is in goes on, or it is over. -/
theorem head?_collapseFrom_after {cs : List α} {c : α}
    (h : (collapseFrom blank space .after cs).head? = some c) : c = space := by
  induction cs with
  | nil => simp at h
  | cons d cs ih =>
    by_cases hd : blank d
    · exact ih (by simpa [collapseFrom, hd] using h)
    · simpa [collapseFrom, hd, eq_comm] using h

theorem head?_collapseFrom_inside {cs : List α} {c : α}
    (h : (collapseFrom blank space .inside cs).head? = some c) :
    c = space ∨ cs.head? = some c := by
  cases cs with
  | nil => simp at h
  | cons d cs =>
    by_cases hd : blank d
    · exact Or.inl (head?_collapseFrom_after (by simpa [collapseFrom, hd] using h))
    · exact Or.inr (by simpa [collapseFrom, hd] using h)

theorem collapseFrom_inside_collapseFrom (hs : blank space = true) (cs : List α) :
    collapseFrom blank space .inside (collapseFrom blank space .inside cs) =
        collapseFrom blank space .inside cs ∧
      collapseFrom blank space .inside (collapseFrom blank space .after cs) =
        collapseFrom blank space .after cs := by
  induction cs with
  | nil => simp
  | cons c cs ih =>
    by_cases hc : blank c
    · simp [collapseFrom, hc, ih.2]
    · simp [collapseFrom, hc, hs, ih.1]

/-- A collapsed text stays as it is. -/
theorem collapseFrom_before_collapseFrom (hs : blank space = true) (cs : List α) :
    collapseFrom blank space .before (collapseFrom blank space .before cs) =
      collapseFrom blank space .before cs := by
  induction cs with
  | nil => rfl
  | cons c cs ih =>
    by_cases hc : blank c
    · simpa [collapseFrom, hc] using ih
    · simp [collapseFrom, hc, (collapseFrom_inside_collapseFrom hs cs).1]

/-- Only spaces and characters of the words are written. -/
theorem mem_collapseFrom {p : Position} {cs : List α} {c : α}
    (h : c ∈ collapseFrom blank space p cs) : c = space ∨ (c ∈ cs ∧ blank c = false) := by
  induction cs generalizing p with
  | nil => simp at h
  | cons d cs ih =>
    by_cases hd : blank d
    · have hrest : ∃ q, c ∈ collapseFrom blank space q cs := by
        cases p <;> simp only [collapseFrom, hd, if_true] at h <;> exact ⟨_, h⟩
      obtain ⟨q, hq⟩ := hrest
      exact (ih hq).imp_right fun ⟨hm, hb⟩ => ⟨List.mem_cons_of_mem _ hm, hb⟩
    · have hrest : c = space ∨ c = d ∨ c ∈ collapseFrom blank space .inside cs := by
        cases p <;> simp only [collapseFrom, hd] at h <;> grind
      rcases hrest with hs | hc | hq
      · exact Or.inl hs
      · exact Or.inr ⟨by simp [hc], by simpa [hc] using hd⟩
      · exact (ih hq).imp_right fun ⟨hm, hb⟩ => ⟨List.mem_cons_of_mem _ hm, hb⟩

/-- A stretch without blanks is as long in the scan, and the scan goes on behind it. -/
theorem takeWhile_collapseFrom {p : α → Bool} (hp : ∀ c, blank c = true → p c = false)
    (hs : p space = false) (cs : List α) :
    (collapseFrom blank space .inside cs).takeWhile p = cs.takeWhile p ∧
      ((collapseFrom blank space .inside cs).dropWhile p =
        collapseFrom blank space .inside (cs.dropWhile p)) := by
  induction cs with
  | nil => simp
  | cons c cs ih =>
    by_cases hc : blank c
    · have hstop : ∀ d, (collapseFrom blank space .after cs).head? = some d → p d = false := by
        intro d hd
        rw [head?_collapseFrom_after hd]
        exact hs
      have hafter : (collapseFrom blank space .after cs).takeWhile p = [] ∧
          (collapseFrom blank space .after cs).dropWhile p =
            collapseFrom blank space .after cs := by
        cases hrest : collapseFrom blank space .after cs with
        | nil => simp
        | cons d ds => simp [hstop d (by simp [hrest])]
      simp [collapseFrom, hc, hp c hc, hafter]
    · by_cases hpc : p c
      · simp [collapseFrom, hc, hpc, ih]
      · simp [collapseFrom, hc, hpc]

end Scan

/-! ## Words -/

theorem pieces_ne_nil (p : Char → Bool) (cs : List Char) : pieces p cs ≠ [] := by
  cases cs with
  | nil => simp [pieces]
  | cons c cs =>
    simp only [pieces]
    split
    · simp
    · split <;> simp

theorem intercalate_cons (w : List Char) (ws : List (List Char)) :
    [' '].intercalate (w :: ws) = w ++ ws.flatMap (' ' :: ·) := by
  induction ws generalizing w with
  | nil => simp
  | cons v ws ih => rw [List.intercalate_cons_cons, ih v]; simp

/-- What a scan writes, in terms of the stretches between blanks. -/
theorem collapseFrom_pieces (cs : List Char) :
    collapseFrom isBlank ' ' .inside cs =
        (pieces isBlank cs).headD [] ++
          ((pieces isBlank cs).tail.filter fun w => !w.isEmpty).flatMap (' ' :: ·) ∧
      collapseFrom isBlank ' ' .after cs = (words cs).flatMap (' ' :: ·) ∧
      collapseFrom isBlank ' ' .before cs = collapse cs := by
  induction cs with
  | nil => simp [pieces, words, collapse]
  | cons c cs ih =>
    obtain ⟨hinside, hafter, hbefore⟩ := ih
    obtain ⟨w, ws, hp⟩ := List.exists_cons_of_ne_nil (pieces_ne_nil isBlank cs)
    by_cases hc : isBlank c
    · simp only [collapseFrom, hc, if_true, hafter, hbefore]
      simp [pieces, hc, words, collapse]
    · have hwords : words (c :: cs) = (c :: w) :: ws.filter fun w => !w.isEmpty := by
        simp [words, pieces, hc, hp]
      simp only [collapseFrom, hc, collapse, hwords, intercalate_cons, hinside, hp]
      simp [pieces, hc, hp]

theorem collapse_eq_collapseFrom (cs : List Char) :
    collapse cs = collapseFrom isBlank ' ' .before cs := (collapseFrom_pieces cs).2.2.symm

theorem collapse_collapse (cs : List Char) : collapse (collapse cs) = collapse cs := by
  simp only [collapse_eq_collapseFrom]
  exact collapseFrom_before_collapseFrom (by decide) cs

/-- A collapsed text has no blank but the space. -/
theorem mem_collapse {cs : List Char} {c : Char} (h : c ∈ collapse cs) :
    c = ' ' ∨ (c ∈ cs ∧ isBlank c = false) := by
  rw [collapse_eq_collapseFrom] at h
  exact mem_collapseFrom h

/-- The stretches of two texts with a mark between them. -/
theorem pieces_append_cons (p : Char → Bool) {c : Char} (hc : p c = true) (as bs : List Char) :
    pieces p (as ++ c :: bs) = pieces p as ++ pieces p bs := by
  induction as with
  | nil => simp [pieces, hc]
  | cons a as ih =>
    by_cases ha : p a
    · simp [pieces, ha, ih]
    · obtain ⟨w, ws, hw⟩ := List.exists_cons_of_ne_nil (pieces_ne_nil p as)
      simp [pieces, ha, ih, hw]

theorem words_append_space (as bs : List Char) :
    words (as ++ ' ' :: bs) = words as ++ words bs := by
  rw [words, pieces_append_cons isBlank (by decide), List.filter_append]
  rfl

/-- Each of two texts that have words is collapsed for itself. -/
theorem collapse_append_space {as bs : List Char} (ha : words as ≠ []) (hb : words bs ≠ []) :
    collapse (as ++ ' ' :: bs) = collapse as ++ ' ' :: collapse bs := by
  obtain ⟨w, ws, hw⟩ := List.exists_cons_of_ne_nil ha
  obtain ⟨v, vs, hv⟩ := List.exists_cons_of_ne_nil hb
  simp [collapse, words_append_space, hw, hv, intercalate_cons]

/-- A text that stands between two others is collapsed for itself. -/
theorem collapse_between {as bs cs : List Char} (ha : words as ≠ []) (hb : words bs ≠ [])
    (hc : words cs ≠ []) :
    collapse (as ++ [' '] ++ bs ++ ' ' :: cs) =
      collapse (as ++ [' ']) ++ ' ' :: collapse bs ++ ' ' :: collapse (' ' :: cs) := by
  have hbc : words (bs ++ ' ' :: cs) ≠ [] := by
    rw [words_append_space]
    simp [hb]
  have hend : collapse (as ++ [' ']) = collapse as := by
    rw [collapse, words_append_space]
    simp [collapse, words, pieces]
  have hstart : collapse (' ' :: cs) = collapse cs := by
    rw [collapse, ← List.nil_append (' ' :: cs), words_append_space]
    simp [collapse, words, pieces]
  rw [hend, hstart, List.append_assoc, List.append_assoc, List.singleton_append,
    collapse_append_space ha hbc, collapse_append_space hb hc]
  simp

theorem pieces_eq_singleton {p : Char → Bool} {cs : List Char} (h : ∀ c ∈ cs, p c = false) :
    pieces p cs = [cs] := by
  induction cs with
  | nil => rfl
  | cons c cs ih =>
    simp [pieces, h c (by simp), ih fun d hd => h d (List.mem_cons_of_mem c hd)]

/-- Every character that is not blank stands in a word. -/
theorem exists_mem_words {cs : List Char} {c : Char} (hc : c ∈ cs) (hblank : isBlank c = false) :
    ∃ w ∈ words cs, c ∈ w := by
  induction cs with
  | nil => cases hc
  | cons d cs ih =>
    obtain ⟨w, ws, hw⟩ := List.exists_cons_of_ne_nil (pieces_ne_nil isBlank cs)
    by_cases hd : isBlank d = true
    · have hwords : words (d :: cs) = words cs := by simp [words, pieces, hd]
      rcases List.mem_cons.mp hc with rfl | hmem
      · rw [hblank] at hd
        cases hd
      · rw [hwords]
        exact ih hmem
    · have hwords : words (d :: cs) = (d :: w) :: ws.filter fun w => !w.isEmpty := by
        simp [words, pieces, hd, hw]
      rw [hwords]
      rcases List.mem_cons.mp hc with rfl | hmem
      · exact ⟨c :: w, by simp, by simp⟩
      · obtain ⟨v, hv, hcv⟩ := ih hmem
        rw [words, hw, List.mem_filter, List.mem_cons] at hv
        rcases hv with ⟨rfl | hv, hne⟩
        · exact ⟨d :: v, by simp, List.mem_cons_of_mem d hcv⟩
        · exact ⟨v, List.mem_cons_of_mem _ (List.mem_filter.mpr ⟨hv, hne⟩), hcv⟩

theorem words_ne_nil {cs : List Char} {c : Char} (hc : c ∈ cs) (hblank : isBlank c = false) :
    words cs ≠ [] := by
  obtain ⟨w, hw, -⟩ := exists_mem_words hc hblank
  exact List.ne_nil_of_mem hw

end QueryLoom.Text
