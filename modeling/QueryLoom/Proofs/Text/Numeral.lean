import QueryLoom.Text.Basic

/-!
# Numerals read within limits

The numeral that is written for a whole number is read as this number by every range that holds it,
and refused by every other range at the end at which the number lies.
-/

set_option autoImplicit false

namespace QueryLoom.Text

theorem le_ofDigitChars (n : Nat) (cs : List Char) : n ≤ Nat.ofDigitChars 10 cs n := by
  induction cs generalizing n with
  | nil => simp
  | cons c cs ih =>
    rw [Nat.ofDigitChars_cons]
    exact Nat.le_trans (by omega) (ih _)

/-- A number only grows by further digits, so leaving the limit on the way is leaving it. -/
theorem boundedDigits_eq {limit acc : Nat} (beyond : NumeralError) {cs : List Char}
    (hcs : ∀ c ∈ cs, c.isDigit = true) (hacc : acc ≤ limit) :
    boundedDigits limit beyond acc cs =
      if Nat.ofDigitChars 10 cs acc ≤ limit then .ok (Nat.ofDigitChars 10 cs acc)
      else .error beyond := by
  induction cs generalizing acc with
  | nil => simp [boundedDigits, hacc]
  | cons c cs ih =>
    have hzero : '0'.toNat = 48 := rfl
    rw [boundedDigits, if_pos (hcs c List.mem_cons_self), Nat.ofDigitChars_cons, hzero]
    dsimp only
    split
    · rename_i hnext
      exact ih (fun d hd => hcs d (List.mem_cons_of_mem c hd)) hnext
    · rename_i hnext
      have hgrows := le_ofDigitChars (10 * acc + (c.toNat - 48)) cs
      rw [if_neg (by omega)]

theorem boundedDigits_natural (limit : Nat) (beyond : NumeralError) (n : Nat) :
    boundedDigits limit beyond 0 (Nat.toDigits 10 n) =
      if n ≤ limit then .ok n else .error beyond := by
  have hdigits : ∀ c ∈ Nat.toDigits 10 n, c.isDigit = true := fun c hc =>
    Nat.isDigit_of_mem_toDigits (by decide) (by decide) hc
  rw [boundedDigits_eq beyond hdigits (Nat.zero_le limit), Nat.ofDigitChars_ten_toDigits]

theorem natural_cons (n : Nat) :
    ∃ c cs, Nat.toDigits 10 n = c :: cs ∧ c ≠ '+' ∧ c ≠ '-' := by
  obtain ⟨c, cs, hcs⟩ := List.exists_cons_of_ne_nil (Nat.toDigits_ne_nil (b := 10) (n := n))
  have hc : c.isDigit = true :=
    Nat.isDigit_of_mem_toDigits (b := 10) (n := n) (by decide) (by decide) (by simp [hcs])
  refine ⟨c, cs, hcs, ?_, ?_⟩
  · rintro rfl
    exact absurd hc (by decide)
  · rintro rfl
    exact absurd hc (by decide)

/-- Only zero begins with a zero. -/
theorem head?_toDigits {n : Nat} (hn : 0 < n) : (Nat.toDigits 10 n).head? ≠ some '0' := by
  induction n using Nat.strongRecOn with
  | ind n ih =>
    rw [Nat.toDigits_eq_if (by decide)]
    by_cases hlt : n < 10
    · rw [if_pos hlt, List.head?_cons, ne_eq, Option.some.injEq]
      have hdigit : ∀ d < 10, 0 < d → Nat.digitChar d ≠ '0' := by decide
      exact hdigit n hlt hn
    · have hlead := ih (n / 10) (by omega) (by omega)
      obtain ⟨c, cs, hcs⟩ :=
        List.exists_cons_of_ne_nil (Nat.toDigits_ne_nil (b := 10) (n := n / 10))
      rw [if_neg hlt, hcs]
      rwa [hcs] at hlead

theorem Range.read_natural (r : Range) (n : Nat) :
    r.read (natural n) = if n ≤ r.above then .ok (n : Int) else .error .tooLarge := by
  obtain ⟨c, cs, hcs, hplus, hminus⟩ := natural_cons n
  have hread : r.read (natural n) =
      (boundedDigits r.above .tooLarge 0 (Nat.toDigits 10 n)).map Int.ofNat := by
    rw [Range.read, natural, String.toList_ofList, hcs]
    split <;> simp_all
  rw [hread, boundedDigits_natural]
  split <;> rfl

theorem Range.read_minus {r : Range} (h : 0 < r.below) (n : Nat) :
    r.read ("-" ++ natural n) = if n ≤ r.below then .ok (-(n : Int)) else .error .tooSmall := by
  obtain ⟨c, cs, hcs, -, -⟩ := natural_cons n
  have hread : r.read ("-" ++ natural n) =
      (boundedDigits r.below .tooSmall 0 (Nat.toDigits 10 n)).map fun m => -Int.ofNat m := by
    have hchars : ("-" ++ natural n).toList = '-' :: c :: cs := by simp [natural, hcs]
    have hbelow : r.below ≠ 0 := by omega
    simp only [Range.read, hchars, hcs, hbelow, if_false]
    cases boundedDigits r.below .tooSmall 0 (c :: cs) <;> rfl
  rw [hread, boundedDigits_natural]
  split <;> rfl

/-- Reading a numeral is checking its number. -/
theorem Range.read_integer {r : Range} (h : 0 < r.below) (n : Int) :
    r.read (integer n) = r.check n := by
  unfold integer Range.check
  by_cases hneg : n < 0
  · have habove : ¬ (r.above : Int) < n := by omega
    rw [if_pos hneg, read_minus h, if_neg habove]
    by_cases hlow : n < -(r.below : Int)
    · rw [if_pos hlow, if_neg (by omega)]
    · rw [if_neg hlow, if_pos (by omega), Int.ofNat_natAbs_of_nonpos (by omega), Int.neg_neg]
  · have hbelow : ¬ n < -(r.below : Int) := by omega
    rw [if_neg hneg, read_natural, if_neg hbelow]
    by_cases hhigh : (r.above : Int) < n
    · rw [if_pos hhigh, if_neg (by omega)]
    · rw [if_neg hhigh, if_pos (by omega), Int.natAbs_of_nonneg (by omega)]

theorem Range.check_eq_ok {r : Range} {m n : Int} :
    r.check n = .ok m ↔ (-(r.below : Int) ≤ n ∧ n ≤ r.above) ∧ m = n := by
  unfold Range.check
  split
  · exact iff_of_false (by simp) (by omega)
  · split
    · exact iff_of_false (by simp) (by omega)
    · simp only [Except.ok.injEq]
      omega

end QueryLoom.Text
