/-!
# Characters and stretches of a text

Whether all characters of a text have a property is decided along the text. The ASCII letters are
two ranges of characters. A stretch of marked characters is as long as it can be: it ends at the
end of the text or in front of a character without the mark. What two texts in a row have from each
of them, any number of texts with separators have too.
-/

set_option autoImplicit false

namespace QueryLoom.Text

-- Without this instance all the characters that there are may be gone through.
instance decidableForallMem (P : Char → Prop) [DecidablePred P] (cs : List Char) :
    Decidable (∀ c ∈ cs, P c) := List.decidableBAll P cs

theorem isAlpha_eq (c : Char) : c.isAlpha = (c.isUpper || c.isLower) := rfl

theorem isUpper_iff {c : Char} : c.isUpper = true ↔ 65 ≤ c.toNat ∧ c.toNat ≤ 90 := by
  change decide (65 ≤ c.val ∧ c.val ≤ 90) = true ↔ _
  rw [decide_eq_true_iff, UInt32.le_iff_toNat_le, UInt32.le_iff_toNat_le]
  rfl

theorem isLower_iff {c : Char} : c.isLower = true ↔ 97 ≤ c.toNat ∧ c.toNat ≤ 122 := by
  change (decide (97 ≤ c.val) && decide (c.val ≤ 122)) = true ↔ _
  rw [Bool.and_eq_true, decide_eq_true_iff, decide_eq_true_iff, UInt32.le_iff_toNat_le,
    UInt32.le_iff_toNat_le]
  rfl

/-- A small letter goes to the one thirty-two places before it, and any other character stays. -/
theorem toUpper_cases (c : Char) : (c.isLower = false ∧ c.toUpper = c) ∨
    (c.isLower = true ∧ c.toUpper.toNat = c.toNat - 32) := by
  have hiff : c.isLower = true ↔ 'a'.val ≤ c.val ∧ c.val ≤ 'z'.val := by
    change (decide ('a'.val ≤ c.val) && decide (c.val ≤ 'z'.val)) = true ↔ _
    rw [Bool.and_eq_true, decide_eq_true_iff, decide_eq_true_iff]
  by_cases hrange : 'a'.val ≤ c.val ∧ c.val ≤ 'z'.val
  · have hlower := hiff.mpr hrange
    have hcode := isLower_iff.mp hlower
    have hval : c.toUpper.val = c.val + ('A'.val - 'a'.val) := by
      delta Char.toUpper
      rw [dif_pos hrange]
    have hstep : ('A'.val - 'a'.val).toNat = 2 ^ 32 - 32 := by decide
    refine .inr ⟨hlower, ?_⟩
    rw [← Char.toNat_val, hval, UInt32.toNat_add, hstep, Char.toNat_val]
    omega
  · exact .inl ⟨Bool.eq_false_iff.mpr (mt hiff.mp hrange), dif_neg hrange⟩

theorem isAlpha_toUpper (c : Char) : c.toUpper.isAlpha = c.isAlpha := by
  rcases toUpper_cases c with ⟨-, hsame⟩ | ⟨hlower, hcode⟩
  · rw [hsame]
  · have hupper : c.toUpper.isUpper = true := by
      have hrange := isLower_iff.mp hlower
      rw [isUpper_iff]
      omega
    rw [isAlpha_eq, isAlpha_eq, hupper, hlower, Bool.or_true, Bool.true_or]

theorem toUpper_toUpper (c : Char) : c.toUpper.toUpper = c.toUpper := by
  rcases toUpper_cases c with ⟨-, hsame⟩ | ⟨hlower, hcode⟩
  · rw [hsame, hsame]
  · rcases toUpper_cases c.toUpper with ⟨-, hsame⟩ | ⟨hagain, -⟩
    · exact hsame
    · have hrange := isLower_iff.mp hlower
      have hrange' := isLower_iff.mp hagain
      omega

variable {α : Type} {p : α → Bool} {cs rest : List α}

def Stops (p : α → Bool) (rest : List α) : Prop := ∀ c, rest.head? = some c → p c = false

theorem stops_nil (p : α → Bool) : Stops p [] := by simp [Stops]

theorem stops_cons {c : α} (h : p c = false) (rest : List α) : Stops p (c :: rest) := by
  intro d hd
  obtain rfl : c = d := by simpa using hd
  exact h

theorem stops_dropWhile (p : α → Bool) (cs : List α) : Stops p (cs.dropWhile p) := by
  intro c hc
  have hnone := List.head?_dropWhile_not p cs
  rw [hc] at hnone
  simpa using hnone

theorem takeWhile_append (hcs : ∀ c ∈ cs, p c = true) (hr : Stops p rest) :
    (cs ++ rest).takeWhile p = cs := by
  have hnone : rest.takeWhile p = [] := by
    cases rest with
    | nil => rfl
    | cons d rest => simp [hr d rfl]
  rw [List.takeWhile_append_of_pos hcs, hnone, List.append_nil]

theorem dropWhile_append (hcs : ∀ c ∈ cs, p c = true) (hr : Stops p rest) :
    (cs ++ rest).dropWhile p = rest := by
  rw [List.dropWhile_append_of_pos hcs]
  cases rest with
  | nil => rfl
  | cons d rest => simp [hr d rfl]

/-- A stretch ends in front of an unmarked character, whatever follows it. -/
theorem span_append_cons {c : α} (h : p c = false) (cs rest : List α) :
    (cs ++ c :: rest).takeWhile p = cs.takeWhile p ∧
      (cs ++ c :: rest).dropWhile p = cs.dropWhile p ++ c :: rest := by
  induction cs with
  | nil => simp [h]
  | cons d cs ih =>
    by_cases hd : p d = true
    · simp [hd, ih]
    · simp [hd]

/-- The stretch and what follows it can be told from the whole. -/
theorem append_inj_of_stops {ds rest' : List α} (hcs : ∀ c ∈ cs, p c = true)
    (hds : ∀ c ∈ ds, p c = true) (hr : Stops p rest) (hr' : Stops p rest')
    (h : cs ++ rest = ds ++ rest') : cs = ds ∧ rest = rest' :=
  ⟨by rw [← takeWhile_append hcs hr, h, takeWhile_append hds hr'],
    by rw [← dropWhile_append hcs hr, h, dropWhile_append hds hr']⟩

/-- Each of the texts stands whole between the separators. -/
theorem infix_intercalate_of_mem {sep : List α} {ws : List (List α)} (h : cs ∈ ws) :
    cs <:+: sep.intercalate ws := by
  induction ws with
  | nil => cases h
  | cons w ws ih =>
    cases ws with
    | nil =>
      obtain rfl := List.mem_singleton.mp h
      simp
    | cons v ws =>
      rw [List.intercalate_cons_cons]
      rcases List.mem_cons.mp h with rfl | h
      · rw [List.append_assoc]
        exact (List.prefix_append _ _).isInfix
      · exact (ih h).trans (List.suffix_append _ _).isInfix

/-- A property that two texts in a row have from each of them, texts with separators have too. -/
theorem of_intercalate {P : String → Prop} (hempty : P "")
    (happend : ∀ s t, P s → P t → P (s ++ t)) {sep : String} (hsep : P sep) {ss : List String}
    (h : ∀ s ∈ ss, P s) : P (sep.intercalate ss) := by
  induction ss with
  | nil => exact hempty
  | cons s ss ih =>
    cases ss with
    | nil => simpa using h s (by simp)
    | cons t ss =>
      rw [String.intercalate_cons_cons]
      exact happend _ _ (happend _ _ (h s (by simp)) hsep)
        (ih fun u hu => h u (List.mem_cons_of_mem _ hu))

end QueryLoom.Text
