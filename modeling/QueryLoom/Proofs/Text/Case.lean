import QueryLoom.Proofs.Text.Spacing
import QueryLoom.Text.Case

/-!
# What lower case leaves

Among the characters before the letters of Latin-1, lower case changes the ASCII capitals alone.
And no character becomes white space by it: where a text has a character that is not blank, its
lower case has one too.
-/

set_option autoImplicit false

namespace QueryLoom.Text

variable {c : Char} {cs : List Char}

theorem lowerRuns_capitals : ∀ r ∈ lowerRuns, (65 ≤ r.first ∧ r.last ≤ 90) ∨ 192 ≤ r.first := by
  decide +kernel

theorem lowerChar_eq_self (hcode : c.toNat < 192) (hc : c.isUpper = false) : lowerChar c = c := by
  have hnone : lowerRuns.find? (fun r => r.first ≤ c.toNat && c.toNat ≤ r.last) = none := by
    rw [List.find?_eq_none]
    intro r hr hin
    rw [Bool.and_eq_true, decide_eq_true_iff, decide_eq_true_iff] at hin
    rcases lowerRuns_capitals r hr with hcapital | hlater
    · have hupper : c.isUpper = true := isUpper_iff.mpr ⟨by omega, by omega⟩
      rw [hc] at hupper
      cases hupper
    · omega
  simp [lowerChar, hnone]

theorem lowerAt_eq_self (hcode : c.toNat < 192) (hc : c.isUpper = false)
    (before after : List Char) : lowerAt before c after = [c] := by
  have hsigma : c ≠ 'Σ' := by
    rintro rfl
    exact absurd hcode (by decide)
  have hdotted : c ≠ 'İ' := by
    rintro rfl
    exact absurd hcode (by decide)
  rw [lowerAt, if_neg hsigma, if_neg hdotted, lowerChar_eq_self hcode hc]

theorem lower_eq_self (h : ∀ c ∈ cs, c.toNat < 192 ∧ c.isUpper = false) : lower cs = cs := by
  have hfrom : ∀ before, lowerFrom before cs = cs := by
    induction cs with
    | nil => intro before; rfl
    | cons c cs ih =>
      intro before
      obtain ⟨hcode, hc⟩ := h c (by simp)
      rw [lowerFrom, lowerAt_eq_self hcode hc, ih (fun d hd => h d (List.mem_cons_of_mem _ hd))]
      rfl
  exact hfrom []

/-- The lower case of each character stands in that of the text. -/
theorem lowerAt_subset_lower (h : c ∈ cs) :
    ∃ before after, lowerAt before c after ⊆ lower cs := by
  have hfrom : ∀ front, ∃ before after, lowerAt before c after ⊆ lowerFrom front cs := by
    induction cs with
    | nil => cases h
    | cons d cs ih =>
      intro front
      rcases List.mem_cons.mp h with rfl | hmem
      · exact ⟨front, cs, List.subset_append_left _ _⟩
      · obtain ⟨before, after, hsub⟩ := ih hmem (d :: front)
        exact ⟨before, after, List.Subset.trans hsub (List.subset_append_right _ _)⟩
  exact hfrom []

/-! ## White space -/

def blankCodes : List Nat :=
  [0x09, 0x0A, 0x0B, 0x0C, 0x0D, 0x20, 0x85, 0xA0, 0x1680, 0x2000, 0x2001, 0x2002, 0x2003, 0x2004,
    0x2005, 0x2006, 0x2007, 0x2008, 0x2009, 0x200A, 0x2028, 0x2029, 0x202F, 0x205F, 0x3000]

theorem toNat_mem_blankCodes (h : isBlank c = true) : c.toNat ∈ blankCodes := by
  simp only [isBlank, Bool.or_eq_true, Bool.and_eq_true, decide_eq_true_iff, beq_iff_eq] at h
  simp only [blankCodes, List.mem_cons, List.not_mem_nil, or_false]
  omega

/-- A number that is no character's stands for the NUL character, which is not white space. -/
theorem mem_blankCodes_of_ofNat {n : Nat} (h : isBlank (Char.ofNat n) = true) :
    n ∈ blankCodes := by
  have hcode := toNat_mem_blankCodes h
  rw [Char.ofNat] at hcode
  by_cases hvalid : n.isValidChar
  · rw [dif_pos hvalid] at hcode
    exact hcode
  · rw [dif_neg hvalid] at hcode
    exact absurd hcode (by decide)

/-- No run of characters goes to white space. -/
theorem lowerRuns_blankCodes : ∀ r ∈ lowerRuns, ∀ n ∈ blankCodes,
    (n : Int) < r.first + r.offset ∨ r.last + r.offset < (n : Int) := by
  decide +kernel

theorem isBlank_lowerChar (h : isBlank c = false) : isBlank (lowerChar c) = false := by
  simp only [lowerChar]
  split
  · rename_i r hr
    have hin := List.find?_some hr
    rw [Bool.and_eq_true, decide_eq_true_iff, decide_eq_true_iff] at hin
    split
    · rw [Bool.eq_false_iff]
      intro hblank
      have hcode := mem_blankCodes_of_ofNat hblank
      have hpos : ((c.toNat : Int) + r.offset).toNat ≠ 0 :=
        ne_of_mem_of_not_mem hcode (by decide)
      have hrun := lowerRuns_blankCodes r (List.mem_of_find?_eq_some hr) _ hcode
      omega
    · exact h
  · exact h

theorem exists_mem_lowerAt (h : isBlank c = false) (before after : List Char) :
    ∃ d ∈ lowerAt before c after, isBlank d = false := by
  unfold lowerAt
  split
  · split
    · exact ⟨'ς', by simp, by decide⟩
    · exact ⟨'σ', by simp, by decide⟩
  · split
    · exact ⟨'i', by simp, by decide⟩
    · exact ⟨lowerChar c, by simp, isBlank_lowerChar h⟩

end QueryLoom.Text
