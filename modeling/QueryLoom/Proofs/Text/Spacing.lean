import QueryLoom.Proofs.Text.Collapse
import QueryLoom.Proofs.Text.Span

/-!
# A stretch of a collapsed text

Where a text is collapsed, a stretch of it that begins and ends inside of words is collapsed for
itself, and what is written around it depends only on what is around it. So the stretch is left as
it is if and only if single spaces are all the white space that it has.
-/

set_option autoImplicit false

namespace QueryLoom.Text

structure Trimmed (cs : List Char) : Prop where
  nonempty : cs ≠ []
  start : Stops isBlank cs
  stop : Stops isBlank cs.reverse

def SingleSpaced : List Char → Prop
  | [] => True
  | c :: cs => (isBlank c = true → c = ' ' ∧ Stops isBlank cs) ∧ SingleSpaced cs

variable {c : Char} {as bs cs : List Char}

/-- What a text begins with is what it begins with when more stands behind it. -/
theorem stops_of_append (hne : as ≠ []) (h : Stops isBlank (as ++ bs)) : Stops isBlank as := by
  obtain ⟨c, as, rfl⟩ := List.exists_cons_of_ne_nil hne
  exact h

theorem stops_reverse_tail (h : Stops isBlank (c :: cs).reverse) : Stops isBlank cs.reverse := by
  by_cases hcs : cs = []
  · subst hcs
    exact stops_nil _
  · rw [List.reverse_cons] at h
    exact stops_of_append (by simpa using hcs) h

theorem trim_trimmed (h : trim cs ≠ []) : Trimmed (trim cs) := by
  refine ⟨h, ?_, ?_⟩
  · have hprefix :
        trim cs ++ ((trimStart cs).reverse.takeWhile isBlank).reverse = trimStart cs := by
      rw [trim, trimEnd, ← List.reverse_append, List.takeWhile_append_dropWhile,
        List.reverse_reverse]
    have hstart : Stops isBlank (trimStart cs) := stops_dropWhile isBlank cs
    rw [← hprefix] at hstart
    exact stops_of_append h hstart
  · rw [trim, trimEnd, List.reverse_reverse]
    exact stops_dropWhile isBlank _

/-- White space around a text is trimmed away. -/
theorem trim_surrounded (has : ∀ c ∈ as, isBlank c = true) (hbs : ∀ c ∈ bs, isBlank c = true)
    (cs : List Char) : trim (as ++ cs ++ bs) = trim cs := by
  have hend : ∀ ds, trimEnd (ds ++ bs) = trimEnd ds := by
    intro ds
    rw [trimEnd, List.reverse_append, List.dropWhile_append_of_pos (by simpa using hbs), ← trimEnd]
  rw [trim, trimStart, List.append_assoc, List.dropWhile_append_of_pos has, List.dropWhile_append]
  by_cases hcs : (cs.dropWhile isBlank).isEmpty = true
  · have hback : (bs ++ []).dropWhile isBlank = [].dropWhile isBlank :=
      List.dropWhile_append_of_pos hbs
    rw [List.append_nil, List.dropWhile_nil] at hback
    rw [if_pos hcs, hback, trim, trimStart, List.isEmpty_iff.mp hcs]
  · rw [if_neg hcs, hend, trim, trimStart]

theorem trimStart_append_cons (hc : isBlank c = false) (as bs : List Char) :
    trimStart (as ++ c :: bs) = trimStart as ++ c :: bs := (span_append_cons hc as bs).2

theorem trimEnd_append_cons (hc : isBlank c = false) (as bs : List Char) :
    trimEnd (as ++ c :: bs) = as ++ c :: trimEnd bs := by
  rw [trimEnd, List.reverse_append, List.reverse_cons, List.append_assoc, List.singleton_append,
    (span_append_cons hc _ _).2]
  simp [trimEnd]

theorem trim_eq_self (h : ∀ c ∈ cs, isBlank c = false) : trim cs = cs := by
  have hkeep : ∀ ds : List Char, (∀ c ∈ ds, isBlank c = false) → ds.dropWhile isBlank = ds := by
    intro ds hds
    cases ds with
    | nil => rfl
    | cons d ds => exact List.dropWhile_cons_of_neg (by simp [hds d])
  rw [trim, trimStart, hkeep cs h, trimEnd, hkeep _ (by simpa using h), List.reverse_reverse]

/-- Only white space is trimmed away. -/
theorem mem_trim (h : c ∈ cs) (hc : isBlank c = false) : c ∈ trim cs := by
  have hkeep : ∀ ds : List Char, c ∈ ds → c ∈ ds.dropWhile isBlank := by
    intro ds hds
    rw [← List.takeWhile_append_dropWhile (p := isBlank) (l := ds), List.mem_append] at hds
    refine hds.resolve_left fun hfront => ?_
    have hblank := List.all_eq_true.mp List.all_takeWhile c hfront
    rw [hc] at hblank
    cases hblank
  rw [trim, trimEnd, trimStart, List.mem_reverse]
  exact hkeep _ (List.mem_reverse.mpr (hkeep cs h))

/-! ## Single spaces -/

theorem singleSpaced_cons (hc : isBlank c = false) : SingleSpaced (c :: cs) ↔ SingleSpaced cs := by
  simp [SingleSpaced, hc]

theorem singleSpaced_collapseFrom (p : Position) (cs : List Char) :
    SingleSpaced (collapseFrom isBlank ' ' p cs) := by
  induction cs generalizing p with
  | nil => simp [SingleSpaced]
  | cons c cs ih =>
    by_cases hc : isBlank c = true
    · cases p <;> simpa [collapseFrom, hc] using ih _
    · rw [Bool.not_eq_true] at hc
      have hword : SingleSpaced (c :: collapseFrom isBlank ' ' .inside cs) :=
        (singleSpaced_cons hc).mpr (ih .inside)
      cases p with
      | before | inside => simpa [collapseFrom, hc] using hword
      | after =>
        have hspaced : SingleSpaced (' ' :: c :: collapseFrom isBlank ' ' .inside cs) :=
          ⟨fun _ => ⟨rfl, stops_cons hc _⟩, hword⟩
        simpa [collapseFrom, hc] using hspaced

theorem singleSpaced_collapse (cs : List Char) : SingleSpaced (collapse cs) := by
  rw [collapse_eq_collapseFrom]
  exact singleSpaced_collapseFrom .before cs

theorem SingleSpaced.of_append (h : SingleSpaced (as ++ bs)) :
    SingleSpaced as ∧ SingleSpaced bs := by
  induction as with
  | nil => exact ⟨trivial, h⟩
  | cons c as ih =>
    obtain ⟨has, hbs⟩ := ih h.2
    refine ⟨⟨fun hc => ⟨(h.1 hc).1, ?_⟩, has⟩, hbs⟩
    rcases as with _ | ⟨d, as⟩
    · exact stops_nil _
    · exact stops_of_append (by simp) (h.1 hc).2

theorem SingleSpaced.of_stretch (h : SingleSpaced bs) (hin : as <:+: bs) : SingleSpaced as := by
  obtain ⟨front, back, rfl⟩ := hin
  exact h.of_append.1.of_append.2

/-- A single-spaced text is written as it is, and behind a space if it was held back. -/
theorem collapseFrom_eq_self (h : SingleSpaced cs) (hstop : Stops isBlank cs.reverse) :
    collapseFrom isBlank ' ' .inside cs = cs ∧
      (cs ≠ [] → Stops isBlank cs → collapseFrom isBlank ' ' .after cs = ' ' :: cs) := by
  induction cs with
  | nil => simp
  | cons c cs ih =>
    obtain ⟨hinside, hafter⟩ := ih h.2 (stops_reverse_tail hstop)
    refine ⟨?_, fun _ hstart => ?_⟩
    · by_cases hc : isBlank c = true
      · have hne : cs ≠ [] := by
          rintro rfl
          rw [hstop c rfl] at hc
          cases hc
        obtain ⟨rfl, hstart⟩ := h.1 hc
        simpa [collapseFrom, hc] using hafter hne hstart
      · simp [collapseFrom, hc, hinside]
    · simp [collapseFrom, hstart c rfl, hinside]

theorem Trimmed.collapse_eq_self (ht : Trimmed cs) (h : SingleSpaced cs) : collapse cs = cs := by
  obtain ⟨c, ds, rfl⟩ := List.exists_cons_of_ne_nil ht.nonempty
  have hinside := (collapseFrom_eq_self h ht.stop).1
  rw [collapse_eq_collapseFrom]
  simpa [collapseFrom, ht.start c rfl] using hinside

/-! ## What stands around a stretch -/

/-- What is written of a text does not depend on what follows, and leaves the scan somewhere. -/
theorem collapseFrom_append (p : Position) (as : List Char) :
    ∃ front q, ∀ cs, collapseFrom isBlank ' ' p (as ++ cs) =
      front ++ collapseFrom isBlank ' ' q cs := by
  induction as generalizing p with
  | nil => exact ⟨[], p, fun _ => rfl⟩
  | cons a as ih =>
    by_cases ha : isBlank a = true
    · cases p with
      | before =>
        obtain ⟨front, q, h⟩ := ih .before
        exact ⟨front, q, fun cs => by simp [collapseFrom, ha, h cs]⟩
      | inside | after =>
        obtain ⟨front, q, h⟩ := ih .after
        exact ⟨front, q, fun cs => by simp [collapseFrom, ha, h cs]⟩
    · obtain ⟨front, q, h⟩ := ih .inside
      cases p with
      | before | inside => exact ⟨a :: front, q, fun cs => by simp [collapseFrom, ha, h cs]⟩
      | after => exact ⟨' ' :: a :: front, q, fun cs => by simp [collapseFrom, ha, h cs]⟩

/-- A scan is inside of a word where a text ends with one. -/
theorem collapseFrom_append_of_stop (p : Position) (hne : cs ≠ [])
    (hstop : Stops isBlank cs.reverse) (bs : List Char) :
    collapseFrom isBlank ' ' p (cs ++ bs) =
      collapseFrom isBlank ' ' p cs ++ collapseFrom isBlank ' ' .inside bs := by
  induction cs generalizing p with
  | nil => exact absurd rfl hne
  | cons c cs ih =>
    by_cases hcs : cs = []
    · subst hcs
      have hc : isBlank c = false := hstop c rfl
      cases p <;> simp [collapseFrom, hc]
    · have hrest := fun q => ih q hcs (stops_reverse_tail hstop)
      by_cases hc : isBlank c = true <;> cases p <;> simp [collapseFrom, hc, hrest]

/-- What is written in front of a stretch and behind it is the same for all stretches that begin
with a word, and end with one unless nothing is behind them. -/
theorem collapse_around (as bs : List Char) : ∃ front back, ∀ cs, cs ≠ [] → Stops isBlank cs →
    (Stops isBlank cs.reverse ∨ bs = []) →
    collapse (as ++ cs ++ bs) = front ++ collapse cs ++ back := by
  obtain ⟨front, q, hfront⟩ := collapseFrom_append .before as
  -- behind a word the stretch is written with a space before it, wherever else it stands without
  refine ⟨front ++ (if q = .after then [' '] else []), collapseFrom isBlank ' ' .inside bs,
    fun cs hne hstart hstop => ?_⟩
  have hbehind : collapse (cs ++ bs) = collapse cs ++ collapseFrom isBlank ' ' .inside bs := by
    simp only [collapse_eq_collapseFrom]
    rcases hstop with hstop | rfl
    · exact collapseFrom_append_of_stop .before hne hstop bs
    · simp
  have hspace : collapseFrom isBlank ' ' q (cs ++ bs) =
      (if q = .after then [' '] else []) ++ collapse (cs ++ bs) := by
    obtain ⟨c, cs, rfl⟩ := List.exists_cons_of_ne_nil hne
    have hc : isBlank c = false := hstart c rfl
    rw [collapse_eq_collapseFrom]
    cases q <;> simp [collapseFrom, hc]
  rw [collapse_eq_collapseFrom, List.append_assoc, hfront, hspace, hbehind]
  simp

theorem Trimmed.infix_collapse (ht : Trimmed cs) (hin : cs <:+: as) :
    collapse cs <:+: collapse as := by
  obtain ⟨before, after, rfl⟩ := hin
  obtain ⟨front, back, h⟩ := collapse_around before after
  exact ⟨front, back, (h cs ht.nonempty ht.start (Or.inl ht.stop)).symm⟩

/-- A stretch of a text is left as it is if its white space is single spaces, and else it is
nowhere in the collapsed text. -/
theorem Trimmed.infix_collapse_iff (ht : Trimmed cs) (hin : cs <:+: as) :
    cs <:+: collapse as ↔ SingleSpaced cs := by
  refine ⟨(singleSpaced_collapse as).of_stretch, fun h => ?_⟩
  have hcollapsed := ht.infix_collapse hin
  rwa [ht.collapse_eq_self h] at hcollapsed

end QueryLoom.Text
