import Mathlib.Tactic.FieldSimp
import QueryLoom.Proofs.Floating.Interval

/-!
# The shortest decimal is nearest to its double

Seventeen digits always suffice: a grid on which a number below `10 ^ 17` steps long begins at the
place of its first digit is finer than the rounding interval, so one of the two points of the grid
around the double lies in the interval. The search ends there at the latest, and where it ends it
has a number of the interval.
-/

set_option autoImplicit false

namespace QueryLoom.Floating

def Scientific.value (d : Scientific) : ℚ := d.digits * 10 ^ d.exponent

/-! ## Powers and logarithms -/

theorem zpow_eq_div {b : ℕ} (hb : b ≠ 0) (e : ℤ) :
    (b : ℚ) ^ e = ((b ^ e.toNat : ℕ) : ℚ) / ((b ^ (-e).toNat : ℕ) : ℚ) := by
  have hb' : (b : ℚ) ≠ 0 := Nat.cast_ne_zero.mpr hb
  obtain ⟨n, rfl | rfl⟩ := e.eq_nat_or_neg <;> simp

theorem zpow_le_quotient {b num den : ℕ} (hb : b ≠ 0) (hd : 0 < den) (e : ℤ) :
    den * b ^ e.toNat ≤ num * b ^ (-e).toNat ↔ (b : ℚ) ^ e ≤ num / den := by
  have hden : (0 : ℚ) < den := Nat.cast_pos.mpr hd
  have hpow : (0 : ℚ) < ((b ^ (-e).toNat : ℕ) : ℚ) :=
    Nat.cast_pos.mpr (Nat.pow_pos (Nat.pos_of_ne_zero hb))
  rw [zpow_eq_div hb, div_le_div_iff₀ hpow hden, mul_comm den]
  exact_mod_cast Iff.rfl

theorem log2Quotient_le {num den : ℕ} (hn : 0 < num) (hd : 0 < den) :
    (2 : ℚ) ^ log2Quotient num den ≤ num / den := by
  have hden : (0 : ℚ) < den := Nat.cast_pos.mpr hd
  simp only [log2Quotient, Nat.pow_eq]
  split
  · rename_i h
    exact_mod_cast (zpow_le_quotient (by decide) hd _).mp h
  · have hnum : ((2 ^ num.log2 : ℕ) : ℚ) ≤ num := Nat.cast_le.mpr (Nat.log2_self_le hn.ne')
    have hlog : (den : ℚ) ≤ ((2 ^ (den.log2 + 1) : ℕ) : ℚ) :=
      Nat.cast_le.mpr Nat.lt_log2_self.le
    have hsplit : (2 : ℚ) ^ ((num.log2 : ℤ) - den.log2 - 1) =
        ((2 ^ num.log2 : ℕ) : ℚ) / ((2 ^ (den.log2 + 1) : ℕ) : ℚ) := by
      rw [show (num.log2 : ℤ) - den.log2 - 1 = num.log2 - (den.log2 + 1 : ℕ) by push_cast; ring,
        zpow_sub₀ (by norm_num), zpow_natCast, zpow_natCast]
      push_cast
      rfl
    rw [hsplit]
    gcongr

theorem log2Quotient_bounds (num den : ℕ) :
    -((den.log2 : ℤ) + 1) ≤ log2Quotient num den ∧ log2Quotient num den ≤ num.log2 := by
  simp only [log2Quotient]
  split <;> omega

/-- The estimate of the decimal logarithm is too large by less than one. -/
theorem ten_zpow_le {g L : ℤ} (h : 100000 * g ≤ 30103 * L) (hlow : -20000 ≤ L)
    (hhigh : L ≤ 100000) : (10 : ℚ) ^ (g - 1) ≤ 2 ^ L := by
  rcases le_or_gt 0 (g - 1) with hg | hg
  · obtain ⟨k, hk⟩ := Int.eq_ofNat_of_zero_le hg
    obtain ⟨l, rfl⟩ := Int.eq_ofNat_of_zero_le (show 0 ≤ L by omega)
    rw [hk, zpow_natCast, zpow_natCast]
    refine le_of_pow_le_pow_left₀ (n := 59) (by norm_num) (by positivity) ?_
    calc ((10 : ℚ) ^ k) ^ 59 = (10 ^ 59) ^ k := by rw [← pow_mul, ← pow_mul, mul_comm]
      _ ≤ (2 ^ 196) ^ k := by gcongr; norm_num
      _ = 2 ^ (196 * k) := by rw [← pow_mul]
      _ ≤ 2 ^ (59 * l) := pow_le_pow_right₀ (by norm_num) (by omega)
      _ = (2 ^ l) ^ 59 := by rw [← pow_mul, mul_comm]
  · obtain ⟨k, hk⟩ := Int.eq_ofNat_of_zero_le (show 0 ≤ 1 - g by omega)
    rcases le_or_gt 0 L with hL | hL
    · calc (10 : ℚ) ^ (g - 1) ≤ 1 := zpow_le_one_of_nonpos₀ (by norm_num) (by omega)
        _ ≤ 2 ^ L := one_le_zpow₀ (by norm_num) hL
    obtain ⟨l, hl⟩ := Int.eq_ofNat_of_zero_le (show 0 ≤ -L by omega)
    have hpow : (2 : ℚ) ^ l ≤ 10 ^ k := by
      refine le_of_pow_le_pow_left₀ (n := 93) (by norm_num) (by positivity) ?_
      calc ((2 : ℚ) ^ l) ^ 93 = (2 ^ 93) ^ l := by rw [← pow_mul, ← pow_mul, mul_comm]
        _ ≤ (10 ^ 28) ^ l := by gcongr; norm_num
        _ = 10 ^ (28 * l) := by rw [← pow_mul]
        _ ≤ 10 ^ (93 * k) := pow_le_pow_right₀ (by norm_num) (by omega)
        _ = (10 ^ k) ^ 93 := by rw [← pow_mul, mul_comm]
    rw [show g - 1 = -(k : ℤ) by omega, show L = -(l : ℤ) by omega, zpow_neg, zpow_neg,
      zpow_natCast, zpow_natCast]
    gcongr

/-- The number of digits before the point is not overestimated. -/
theorem pointPlace_le {num den : ℕ} (hn : 0 < num) (hd : 0 < den) (hnum : num.log2 ≤ 10000)
    (hden : den.log2 ≤ 10000) : (10 : ℚ) ^ (pointPlace num den - 1) ≤ num / den := by
  obtain ⟨hlow, hhigh⟩ := log2Quotient_bounds num den
  simp only [pointPlace, decide_eq_true_eq, Nat.pow_eq]
  split
  · rename_i h
    rw [show ∀ g : ℤ, g + 2 - 1 = g + 1 by intro g; ring]
    exact_mod_cast (zpow_le_quotient (by decide) hd _).mp h
  · split
    · rename_i h
      rw [show ∀ g : ℤ, g + 1 - 1 = g by intro g; ring]
      exact_mod_cast (zpow_le_quotient (by decide) hd _).mp h
    · exact (ten_zpow_le (by omega) (by omega) (by omega)).trans (log2Quotient_le hn hd)

/-! ## Points of a grid -/

namespace Neighbourhood

variable {n : Neighbourhood}

/-- The number lies between the midpoints, or on one that reads back. -/
structure Holds (n : Neighbourhood) (x : ℚ) : Prop where
  low : (n.low : ℚ) / n.den ≤ x
  high : x ≤ n.high / n.den
  strict : n.inclusive = false → (n.low : ℚ) / n.den < x ∧ x < n.high / n.den

theorem place_value (e : ℤ) (k : ℕ) :
    (k : ℚ) * 10 ^ e * n.den * ((10 ^ (-e).toNat : ℕ) : ℚ) =
      ((k * 10 ^ e.toNat * n.den : ℕ) : ℚ) := by
  have hdown : ((10 ^ (-e).toNat : ℕ) : ℚ) ≠ 0 := by positivity
  have hpow := zpow_eq_div (b := 10) (by decide) e
  rw [Nat.cast_ofNat] at hpow
  rw [hpow]
  field_simp
  push_cast
  ring

theorem holds_iff (hd : 0 < n.den) (e : ℤ) (k : ℕ) :
    n.holds (10 ^ (-e).toNat) (k * 10 ^ e.toNat * n.den) = true ↔ n.Holds (k * 10 ^ e) := by
  have hden : (0 : ℚ) < n.den := Nat.cast_pos.mpr hd
  have hdown : (0 : ℚ) < ((10 ^ (-e).toNat : ℕ) : ℚ) := by positivity
  have hvalue := place_value (n := n) e k
  generalize (k : ℚ) * 10 ^ e = x at hvalue ⊢
  generalize 10 ^ (-e).toNat = down at hvalue hdown ⊢
  generalize k * 10 ^ e.toNat * n.den = num at hvalue ⊢
  have hlow : n.low * down ≤ num ↔ (n.low : ℚ) / n.den ≤ x := by
    rw [div_le_iff₀ hden, ← mul_le_mul_iff_of_pos_right hdown, hvalue]
    exact_mod_cast Iff.rfl
  have hhigh : num ≤ n.high * down ↔ x ≤ (n.high : ℚ) / n.den := by
    rw [le_div_iff₀ hden, ← mul_le_mul_iff_of_pos_right hdown, hvalue]
    exact_mod_cast Iff.rfl
  have hlow' : n.low * down < num ↔ (n.low : ℚ) / n.den < x := by
    rw [div_lt_iff₀ hden, ← mul_lt_mul_iff_of_pos_right hdown, hvalue]
    exact_mod_cast Iff.rfl
  have hhigh' : num < n.high * down ↔ x < (n.high : ℚ) / n.den := by
    rw [lt_div_iff₀ hden, ← mul_lt_mul_iff_of_pos_right hdown, hvalue]
    exact_mod_cast Iff.rfl
  unfold holds
  cases hi : n.inclusive with
  | true =>
    simp only [if_true, Bool.and_eq_true, decide_eq_true_eq, hlow, hhigh]
    exact ⟨fun h => ⟨h.1, h.2, by simp [hi]⟩, fun h => ⟨h.low, h.high⟩⟩
  | false =>
    simp only [Bool.false_eq_true, if_false, Bool.and_eq_true, decide_eq_true_eq, hlow', hhigh']
    exact ⟨fun h => ⟨h.1.le, h.2.le, fun _ => h⟩, fun h => h.strict hi⟩

theorem onGrid?_holds (hd : 0 < n.den) {e : ℤ} {d : Scientific} (h : n.onGrid? e = some d) :
    n.Holds d.value := by
  simp only [onGrid?, Nat.pow_eq] at h
  split at h
  · rename_i hcond
    cases h
    rw [Bool.and_eq_true] at hcond
    exact (holds_iff hd e _).mp hcond.1
  · split at h
    · rename_i hcond
      cases h
      exact (holds_iff hd e _).mp hcond
    · cases h

/-- The points of a grid around the double. -/
theorem grid_around (hd : 0 < n.den) (e : ℤ) :
    let k := n.value * 10 ^ (-e).toNat / (n.den * 10 ^ e.toNat)
    (k : ℚ) * 10 ^ e ≤ n.value / n.den ∧ (n.value : ℚ) / n.den < ((k + 1 : ℕ) : ℚ) * 10 ^ e := by
  intro k
  have hden : (0 : ℚ) < n.den := Nat.cast_pos.mpr hd
  have hdown : (0 : ℚ) < ((10 ^ (-e).toNat : ℕ) : ℚ) := by positivity
  have hup : 0 < n.den * 10 ^ e.toNat := by positivity
  have hbelow : k * 10 ^ e.toNat * n.den ≤ n.value * 10 ^ (-e).toNat := by
    rw [mul_assoc, mul_comm (10 ^ e.toNat)]
    exact Nat.div_mul_le_self _ _
  have habove : n.value * 10 ^ (-e).toNat < (k + 1) * 10 ^ e.toNat * n.den := by
    rw [mul_assoc, mul_comm (10 ^ e.toNat), mul_comm (k + 1)]
    exact Nat.lt_mul_div_succ _ hup
  constructor
  · rw [le_div_iff₀ hden, ← mul_le_mul_iff_of_pos_right hdown, place_value]
    exact_mod_cast hbelow
  · rw [div_lt_iff₀ hden, ← mul_lt_mul_iff_of_pos_right hdown, place_value]
    exact_mod_cast habove

/-- A grid finer than the interval has a point in it next to the double. -/
theorem onGrid?_isSome (hd : 0 < n.den) {e : ℤ} (hlow : n.low < n.value) (hhigh : n.value < n.high)
    (hfine : (10 : ℚ) ^ e < n.high / n.den - n.low / n.den) : (n.onGrid? e).isSome = true := by
  have hden : (0 : ℚ) < n.den := Nat.cast_pos.mpr hd
  obtain ⟨hbelow, habove⟩ := grid_around hd e
  set k := n.value * 10 ^ (-e).toNat / (n.den * 10 ^ e.toNat) with hk
  have hlow' : (n.low : ℚ) / n.den < n.value / n.den := by gcongr
  have hhigh' : (n.value : ℚ) / n.den < n.high / n.den := by gcongr
  by_contra hnone
  have hnot : n.holds (10 ^ (-e).toNat) (k * 10 ^ e.toNat * n.den) = false ∧
      n.holds (10 ^ (-e).toNat) ((k + 1) * 10 ^ e.toNat * n.den) = false := by
    simp only [onGrid?, Nat.pow_eq, ← hk] at hnone
    revert hnone
    cases n.holds (10 ^ (-e).toNat) (k * 10 ^ e.toNat * n.den) <;>
      cases n.holds (10 ^ (-e).toNat) ((k + 1) * 10 ^ e.toNat * n.den) <;>
      simp
    split <;> simp
  have hbelow' : (k : ℚ) * 10 ^ e ≤ n.low / n.den := by
    by_contra hgt
    have hholds : n.Holds ((k : ℚ) * 10 ^ e) :=
      ⟨(not_le.mp hgt).le, (hbelow.trans_lt hhigh').le,
        fun _ => ⟨not_le.mp hgt, hbelow.trans_lt hhigh'⟩⟩
    rw [← holds_iff hd, hnot.1] at hholds
    cases hholds
  have habove' : (n.high : ℚ) / n.den ≤ ((k + 1 : ℕ) : ℚ) * 10 ^ e := by
    by_contra hlt
    have hholds : n.Holds (((k + 1 : ℕ) : ℚ) * 10 ^ e) :=
      ⟨(hlow'.trans habove).le, (not_le.mp hlt).le,
        fun _ => ⟨hlow'.trans habove, not_le.mp hlt⟩⟩
    rw [← holds_iff hd, hnot.2] at hholds
    cases hholds
  have hstep : ((k + 1 : ℕ) : ℚ) * 10 ^ e - k * 10 ^ e = 10 ^ e := by
    push_cast
    ring
  linarith

/-- If the last grid that is tried has a point, the search ends at one. -/
theorem search_onGrid {place : ℤ} (fuel used : ℕ)
    (h : (n.onGrid? (place - (used + fuel : ℕ))).isSome = true) :
    ∃ e, n.onGrid? e = some (n.search place (fuel + 1) used) := by
  induction fuel generalizing used with
  | zero =>
    obtain ⟨d, hd⟩ := Option.isSome_iff_exists.mp h
    rw [Nat.add_zero] at hd
    exact ⟨_, by rw [search, hd]⟩
  | succ fuel ih =>
    cases hgrid : n.onGrid? (place - used) with
    | some d => exact ⟨_, by rw [search, hgrid]⟩
    | none =>
      rw [search, hgrid]
      exact ih (used + 1) (by rwa [show used + 1 + fuel = used + (fuel + 1) by omega])

end Neighbourhood

theorem trimZeros_value (d : Scientific) (fuel : ℕ) : (d.trimZeros fuel).value = d.value := by
  induction fuel generalizing d with
  | zero => rfl
  | succ fuel ih =>
    rw [Scientific.trimZeros]
    split
    · rename_i h
      have hdigits : (d.digits : ℚ) = (d.digits / 10 : ℕ) * 10 := by
        exact_mod_cast (Nat.div_mul_cancel (Nat.dvd_of_mod_eq_zero h)).symm
      rw [ih]
      simp only [Scientific.value]
      rw [hdigits, zpow_add₀ (by norm_num), zpow_one]
      ring
    · rfl

/-! ## Doubles -/

section Double

variable {m : ℕ} {q : ℤ}

theorem neighbourhood_den (m : ℕ) (q : ℤ) :
    ((neighbourhood m q).den : ℚ) = 4 * ((2 ^ (-q).toNat : ℕ) : ℚ) := by
  simp [neighbourhood]

theorem quotient_eq (k : ℕ) (q : ℤ) :
    ((k * 2 ^ q.toNat : ℕ) : ℚ) / (4 * ((2 ^ (-q).toNat : ℕ) : ℚ)) = k / 4 * 2 ^ q := by
  have hpow := zpow_eq_div (b := 2) (by decide) q
  rw [Nat.cast_ofNat] at hpow
  rw [hpow]
  push_cast
  field_simp

theorem neighbourhood_value (m : ℕ) (q : ℤ) :
    ((neighbourhood m q).value : ℚ) / (neighbourhood m q).den = m * 2 ^ q := by
  rw [neighbourhood_den]
  simp only [neighbourhood, Nat.pow_eq]
  rw [quotient_eq]
  push_cast
  ring

theorem neighbourhood_high (m : ℕ) (q : ℤ) :
    ((neighbourhood m q).high : ℚ) / (neighbourhood m q).den = highEnd m q := by
  rw [neighbourhood_den]
  simp only [neighbourhood, Nat.pow_eq]
  rw [quotient_eq, highEnd]
  push_cast
  ring

theorem neighbourhood_low (hm : 0 < m) (q : ℤ) :
    ((neighbourhood m q).low : ℚ) / (neighbourhood m q).den = lowEnd m q := by
  rw [neighbourhood_den]
  simp only [neighbourhood, Nat.pow_eq]
  rw [quotient_eq, lowEnd, gap]
  have hiff : (decide (m = 2 ^ (double.precision - 1)) && decide (double.minExponent < q)) = true ↔
      m = 2 ^ 52 ∧ double.minExponent < q := by
    rw [Bool.and_eq_true, decide_eq_true_eq, decide_eq_true_eq]
    exact Iff.rfl
  by_cases h : m = 2 ^ 52 ∧ double.minExponent < q
  · rw [if_pos h, if_pos (hiff.mpr h), Nat.cast_sub (by omega)]
    push_cast
    ring
  · rw [if_neg h, if_neg fun hb => h (hiff.mp hb), Nat.cast_sub (by omega)]
    push_cast
    ring

theorem neighbourhood_holds (hm : 0 < m) {x : ℚ} (h : (neighbourhood m q).Holds x) :
    Covers m q x := by
  have hlow := neighbourhood_low hm q
  have hhigh := neighbourhood_high m q
  refine ⟨hlow ▸ h.low, hhigh ▸ h.high, fun hodd => ?_⟩
  obtain ⟨hl, hh⟩ := h.strict (by simp [neighbourhood, hodd])
  exact ⟨hlow ▸ hl, hhigh ▸ hh⟩

/-- The interval of a double is wider than the grid of its seventeenth digit. -/
theorem grid_fine (hm' : m < 2 ^ 53) {place : ℤ} (h : (10 : ℚ) ^ (place - 1) ≤ m * 2 ^ q) :
    (10 : ℚ) ^ (place - 17) < highEnd m q - lowEnd m q := by
  have hpow : (0 : ℚ) < 2 ^ q := by positivity
  have hdigits : (m : ℚ) < (1 / 2 + gap m q) * 10 ^ 16 := by
    unfold gap
    split
    · rename_i hm
      rw [hm.1]
      norm_num
    · have : (m : ℚ) < ((2 ^ 53 : ℕ) : ℚ) := Nat.cast_lt.mpr hm'
      norm_num at this ⊢
      linarith
  have hsplit : (10 : ℚ) ^ (place - 1) = 10 ^ (place - 17) * 10 ^ 16 := by
    rw [show place - 1 = place - 17 + (16 : ℕ) by push_cast; ring, zpow_add₀ (by norm_num),
      zpow_natCast]
  have hwidth : highEnd m q - lowEnd m q = (1 / 2 + gap m q) * 2 ^ q := by
    unfold highEnd lowEnd
    ring
  rw [hwidth]
  nlinarith

theorem shortest_covers (hm : 0 < m) (hm' : m < 2 ^ 53) (hq : -2000 ≤ q) (hq' : q ≤ 2000) :
    Covers m q (shortest m q).value := by
  have hscale : 0 < 2 ^ q.toNat := by positivity
  have hden : 0 < (neighbourhood m q).den := by simp [neighbourhood]
  have hvalue : 0 < (neighbourhood m q).value := by simp [neighbourhood, hm]
  have hlow : (neighbourhood m q).low < (neighbourhood m q).value := by
    simp only [neighbourhood, Nat.pow_eq]
    refine Nat.mul_lt_mul_of_pos_right ?_ hscale
    split <;> omega
  have hhigh : (neighbourhood m q).value < (neighbourhood m q).high := by
    simp only [neighbourhood, Nat.pow_eq]
    exact Nat.mul_lt_mul_of_pos_right (by omega) hscale
  have hlogValue : (neighbourhood m q).value.log2 ≤ 10000 := by
    have hlt : (neighbourhood m q).value < 2 ^ (55 + q.toNat) := by
      simp only [neighbourhood, Nat.pow_eq]
      rw [pow_add]
      exact Nat.mul_lt_mul_of_pos_right (by omega) hscale
    have := (Nat.log2_lt hvalue.ne').mpr hlt
    omega
  have hlogDen : (neighbourhood m q).den.log2 ≤ 10000 := by
    have hlt : (neighbourhood m q).den < 2 ^ (3 + (-q).toNat) := by
      simp only [neighbourhood, Nat.pow_eq]
      rw [pow_add]
      exact Nat.mul_lt_mul_of_pos_right (by omega) (by positivity)
    have := (Nat.log2_lt hden.ne').mpr hlt
    omega
  have hplace := pointPlace_le hvalue hden hlogValue hlogDen
  rw [neighbourhood_value] at hplace
  have hfine := grid_fine hm' hplace
  rw [← neighbourhood_high, ← neighbourhood_low hm] at hfine
  obtain ⟨e, he⟩ := Neighbourhood.search_onGrid 16 1
    (Neighbourhood.onGrid?_isSome hden hlow hhigh hfine)
  rw [shortest, trimZeros_value]
  exact neighbourhood_holds hm (Neighbourhood.onGrid?_holds hden he)

end Double

end QueryLoom.Floating
