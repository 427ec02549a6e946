import QueryLoom.Placeholder
import QueryLoom.Proofs.Text.Span
import QueryLoom.Text.Basic

/-!
# Characters of names

What a name begins with can also go on in it, a digit can only go on in it, and white space is
never part of one.
-/

set_option autoImplicit false

namespace QueryLoom

open Placeholder

def IsName (k : String) : Prop :=
  ∃ c cs, k.toList = c :: cs ∧ isNameStart c = true ∧ ∀ d ∈ cs, isNamePart d = true

namespace Placeholder

variable {c : Char}

theorem isNamePart_of_isNameStart (h : isNameStart c = true) : isNamePart c = true := by
  simp only [isNameStart, isNamePart, Char.isAlphanum, Bool.or_eq_true] at h ⊢
  exact h.imp_left Or.inl

theorem isNamePart_of_isDigit (h : c.isDigit = true) : isNamePart c = true := by
  simp [isNamePart, Char.isAlphanum, h]

theorem isNameStart_of_isDigit (h : c.isDigit = true) : isNameStart c = false := by
  have hzero : '0'.toNat = 48 := rfl
  have hnine : '9'.toNat = 57 := rfl
  rw [Char.isDigit_iff_toNat] at h
  rw [Bool.eq_false_iff]
  intro hstart
  simp only [isNameStart, Text.isAlpha_eq, Bool.or_eq_true, beq_iff_eq, Text.isUpper_iff,
    Text.isLower_iff] at hstart
  rcases hstart with (hupper | hlower) | rfl
  · omega
  · omega
  · simp at h

theorem isBlank_of_isNamePart (h : isNamePart c = true) : Text.isBlank c = false := by
  have hzero : '0'.toNat = 48 := rfl
  have hnine : '9'.toNat = 57 := rfl
  simp only [isNamePart, Char.isAlphanum, Text.isAlpha_eq, Bool.or_eq_true, beq_iff_eq,
    Text.isUpper_iff, Text.isLower_iff, Char.isDigit_iff_toNat] at h
  simp only [Text.isBlank, Bool.or_eq_false_iff, Bool.and_eq_false_iff, decide_eq_false_iff_not,
    beq_eq_false_iff_ne]
  rcases h with ((hupper | hlower) | hdigit) | rfl
  · omega
  · omega
  · omega
  · decide

end Placeholder

/-- All characters of a name are parts of names. -/
theorem IsName.isNamePart {k : String} (h : IsName k) :
    ∀ c ∈ k.toList, isNamePart c = true := by
  obtain ⟨c, cs, hk, hc, hcs⟩ := h
  intro d hd
  rw [hk] at hd
  rcases List.mem_cons.mp hd with rfl | hd
  · exact isNamePart_of_isNameStart hc
  · exact hcs d hd

end QueryLoom
