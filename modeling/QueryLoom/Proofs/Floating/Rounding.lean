import QueryLoom.Proofs.Floating.Text
import QueryLoom.Proofs.Text.Numeral

/-!
# Rounding to the nearest double

A quotient is divided by the step of the doubles around it and rounded to a whole number of steps,
a half going to the even one. Where the significand is rounded up to the next power of two the
step changes, and the bits still count on. So the double that is taken is nearest to the quotient.
-/

set_option autoImplicit false

namespace QueryLoom.Floating

variable {num den : ℕ}

/-- The whole number is at most a half away, and by less if it is odd. -/
structure IsRounded (r : ℕ) (y : ℚ) : Prop where
  low : (r : ℚ) - 1 / 2 ≤ y
  high : y ≤ r + 1 / 2
  strict : r % 2 = 1 → (r : ℚ) - 1 / 2 < y ∧ y < r + 1 / 2

theorem roundHalfEven_bounds (num : ℕ) (hd : 0 < den) :
    (2 * num ≤ (2 * roundHalfEven num den + 1) * den ∧
      2 * roundHalfEven num den * den ≤ 2 * num + den) ∧
    (roundHalfEven num den % 2 = 1 →
      2 * num < (2 * roundHalfEven num den + 1) * den ∧
        2 * roundHalfEven num den * den < 2 * num + den) := by
  have hsplit := Nat.div_add_mod num den
  have hmod := Nat.mod_lt num hd
  simp only [roundHalfEven]
  generalize num / den = whole at hsplit ⊢
  generalize num % den = left at hsplit hmod ⊢
  have hwhole : (2 * whole + 1) * den = 2 * (den * whole) + den := by ring
  have hdouble : 2 * whole * den = 2 * (den * whole) := by ring
  have hnext : (2 * (whole + 1) + 1) * den = 2 * (den * whole) + 3 * den := by ring
  have hdouble' : 2 * (whole + 1) * den = 2 * (den * whole) + 2 * den := by ring
  split_ifs <;> simp only [hwhole, hdouble, hnext, hdouble'] <;> omega

theorem roundHalfEven_isRounded (hd : 0 < den) :
    IsRounded (roundHalfEven num den) ((num : ℚ) / den) := by
  have hden : (0 : ℚ) < den := Nat.cast_pos.mpr hd
  obtain ⟨⟨hhigh, hlow⟩, hstrict⟩ := roundHalfEven_bounds num hd
  generalize roundHalfEven num den = r at hhigh hlow hstrict ⊢
  constructor
  · rw [le_div_iff₀ hden]
    have : (2 * r * den : ℚ) ≤ 2 * num + den := by exact_mod_cast hlow
    linarith
  · rw [div_le_iff₀ hden]
    have : (2 * num : ℚ) ≤ (2 * r + 1) * den := by exact_mod_cast hhigh
    linarith
  · intro hodd
    obtain ⟨hhigh, hlow⟩ := hstrict hodd
    rw [lt_div_iff₀ hden, div_lt_iff₀ hden]
    have hlow' : (2 * r * den : ℚ) < 2 * num + den := by exact_mod_cast hlow
    have hhigh' : (2 * num : ℚ) < (2 * r + 1) * den := by exact_mod_cast hhigh
    constructor <;> linarith

/-- The number of steps of `2 ^ q` that a quotient is, rounded. -/
theorem roundToStep_isRounded (hd : 0 < den) (q : ℤ) :
    IsRounded (roundToStep num den q) ((num : ℚ) / den / 2 ^ q) := by
  have hdown : (0 : ℚ) < ((2 ^ (-q).toNat : ℕ) : ℚ) := by positivity
  have hsteps : ((num * 2 ^ (-q).toNat : ℕ) : ℚ) / ((den * 2 ^ q.toNat : ℕ) : ℚ) =
      (num : ℚ) / den / 2 ^ q := by
    have hpow := zpow_eq_div (b := 2) (by decide) q
    rw [Nat.cast_ofNat] at hpow
    rw [hpow]
    push_cast
    field_simp
  rw [← hsteps]
  exact roundHalfEven_isRounded (Nat.mul_pos hd (Nat.pow_pos (by decide)))

theorem lt_log2Quotient (hd : 0 < den) : (num : ℚ) / den < 2 ^ (log2Quotient num den + 1) := by
  have hden : (0 : ℚ) < den := Nat.cast_pos.mpr hd
  simp only [log2Quotient, Nat.pow_eq]
  split
  · have hnum : (num : ℚ) < ((2 ^ (num.log2 + 1) : ℕ) : ℚ) := Nat.cast_lt.mpr Nat.lt_log2_self
    have hlog : ((2 ^ den.log2 : ℕ) : ℚ) ≤ den := Nat.cast_le.mpr (Nat.log2_self_le hd.ne')
    have hsplit : (2 : ℚ) ^ ((num.log2 : ℤ) - den.log2 + 1) =
        ((2 ^ (num.log2 + 1) : ℕ) : ℚ) / ((2 ^ den.log2 : ℕ) : ℚ) := by
      rw [show (num.log2 : ℤ) - den.log2 + 1 = (num.log2 + 1 : ℕ) - den.log2 by push_cast; ring,
        zpow_sub₀ (by norm_num), zpow_natCast, zpow_natCast]
      push_cast
      rfl
    rw [hsplit]
    gcongr
  · rename_i h
    rw [sub_add_cancel]
    refine lt_of_not_ge fun hge => h ?_
    exact (zpow_le_quotient two_ne_zero hd _).mpr (by exact_mod_cast hge)

/-- The significand and exponent of a rounded number of steps. -/
theorem bits_of_steps {r e : ℕ} (hr : r ≤ 2 ^ 53) (he : r < 2 ^ 52 → e = 0) :
    (significandOf (r + e * 2 ^ 52) = r ∧ exponentOf (r + e * 2 ^ 52) = double.minExponent + e) ∨
      (significandOf (r + e * 2 ^ 52) = 2 ^ 52 ∧
        exponentOf (r + e * 2 ^ 52) = double.minExponent + e + 1 ∧ r = 2 ^ 53) := by
  by_cases hlow : r < 2 ^ 52
  · obtain rfl := he hlow
    have hdiv : r / 2 ^ 52 = 0 := by omega
    left
    simp only [significandOf, exponentOf, Nat.zero_mul, Nat.add_zero, hdiv, if_true]
    exact ⟨by omega, by simp⟩
  · by_cases htop : r = 2 ^ 53
    · have hdiv : (r + e * 2 ^ 52) / 2 ^ 52 = e + 2 := by omega
      have hmod : (r + e * 2 ^ 52) % 2 ^ 52 = 0 := by omega
      right
      simp only [significandOf, exponentOf, hdiv, hmod]
      refine ⟨by simp, ?_, htop⟩
      rw [if_neg (by omega)]
      push_cast
      ring
    · have hdiv : (r + e * 2 ^ 52) / 2 ^ 52 = e + 1 := by omega
      have hmod : (r + e * 2 ^ 52) % 2 ^ 52 = r - 2 ^ 52 := by omega
      left
      simp only [significandOf, exponentOf, hdiv, hmod]
      constructor
      · rw [if_neg (by omega)]
        omega
      · rw [if_neg (by omega)]
        push_cast
        ring

theorem IsRounded.le {r : ℕ} {y : ℚ} (h : IsRounded r y) (hy : y < 2 ^ 53) : r ≤ 2 ^ 53 := by
  have hlow := h.low
  have hlt : (r : ℚ) < ((2 ^ 53 + 1 : ℕ) : ℚ) := by
    push_cast
    linarith
  have := Nat.cast_lt.mp hlt
  omega

/-- A rounded number of steps is nearest, unless smaller steps lead up to it. -/
theorem IsRounded.covers_step {r : ℕ} {q : ℤ} {x : ℚ} (h : IsRounded r (x / 2 ^ q))
    (hpower : r = 2 ^ 52 ∧ double.minExponent < q → 2 ^ 52 ≤ x / 2 ^ q) : Covers r q x := by
  have hstep : (0 : ℚ) < 2 ^ q := by positivity
  have hgap : (r - gap r q : ℚ) ≤ x / 2 ^ q := by
    unfold gap
    split
    · rename_i hsmaller
      have hsteps := hpower hsmaller
      rw [hsmaller.1]
      push_cast
      linarith
    · exact h.low
  refine ⟨(le_div_iff₀ hstep).mp hgap, (div_le_iff₀ hstep).mp h.high, fun hodd => ?_⟩
  obtain ⟨hlow, hhigh⟩ := h.strict hodd
  have hhalf : gap r q = 1 / 2 := if_neg (by omega)
  rw [lowEnd, hhalf]
  exact ⟨(lt_div_iff₀ hstep).mp hlow, (div_lt_iff₀ hstep).mp hhigh⟩

/-- What is rounded up to the next power of two is nearest to that power. -/
theorem IsRounded.covers_power {q : ℤ} {x : ℚ} (hq : double.minExponent ≤ q)
    (h : IsRounded (2 ^ 53) (x / 2 ^ q)) (hhigh : x / 2 ^ q < 2 ^ 53) :
    Covers (2 ^ 52) (q + 1) x := by
  have hstep : (0 : ℚ) < 2 ^ q := by positivity
  have hdouble : (2 : ℚ) ^ (q + 1) = 2 * 2 ^ q := by
    rw [zpow_add₀ (by norm_num), zpow_one, mul_comm]
  have hquarter : gap (2 ^ 52) (q + 1) = 1 / 4 := if_pos ⟨rfl, by omega⟩
  refine ⟨?_, ?_, by norm_num⟩
  · rw [lowEnd, hquarter, hdouble]
    have := (le_div_iff₀ hstep).mp h.low
    push_cast at this ⊢
    linarith
  · rw [highEnd, hdouble]
    have := (div_lt_iff₀ hstep).mp hhigh
    push_cast
    linarith

/-- The bits of a rounded number of steps are of the double nearest to the number. -/
theorem IsRounded.covers {r e : ℕ} {x : ℚ}
    (h : IsRounded r (x / 2 ^ (double.minExponent + e)))
    (hhigh : x / 2 ^ (double.minExponent + e) < 2 ^ 53)
    (hlow : e ≠ 0 → 2 ^ 52 ≤ x / 2 ^ (double.minExponent + e)) :
    Covers (significandOf (r + e * 2 ^ 52)) (exponentOf (r + e * 2 ^ 52)) x := by
  have he : r < 2 ^ 52 → e = 0 := by
    intro hlt
    by_contra hne
    have hle : (r : ℚ) + 1 ≤ 2 ^ 52 := by exact_mod_cast hlt
    have := h.high
    have := hlow hne
    linarith
  rcases bits_of_steps (h.le hhigh) he with ⟨hm, hq⟩ | ⟨hm, hq, rfl⟩
  · rw [hm, hq]
    exact h.covers_step fun hpower => hlow (by omega)
  · rw [hm, hq]
    exact h.covers_power (by omega) hhigh

def stepOf (num den : ℕ) : ℕ :=
  (max (log2Quotient num den - 52) double.minExponent - double.minExponent).toNat

theorem stepOf_eq (num den : ℕ) :
    double.minExponent + stepOf num den = max (log2Quotient num den - 52) double.minExponent := by
  have := le_max_right (log2Quotient num den - 52) double.minExponent
  rw [stepOf, Int.toNat_of_nonneg (by omega)]
  omega

theorem nearest_eq (hn : 0 < num) (den : ℕ) : double.nearest num den =
    min (roundToStep num den (double.minExponent + stepOf num den) + stepOf num den * 2 ^ 52)
      double.infinityBits := by
  have hprecision : ((double.precision : ℤ) - 1) = 52 := by decide
  rw [Format.nearest, if_neg hn.ne', hprecision, stepOf_eq]
  rfl

theorem two_zpow_div (j k : ℤ) : (2 : ℚ) ^ j / 2 ^ k = 2 ^ (j - k) :=
  (zpow_sub₀ (by norm_num) _ _).symm

theorem steps_lt (hd : 0 < den) :
    (num : ℚ) / den / 2 ^ (double.minExponent + stepOf num den) < 2 ^ 53 := by
  have hstep := stepOf_eq num den
  calc (num : ℚ) / den / 2 ^ (double.minExponent + stepOf num den)
      < 2 ^ (log2Quotient num den + 1) / 2 ^ (double.minExponent + stepOf num den) := by
        gcongr
        exact lt_log2Quotient hd
    _ = 2 ^ (log2Quotient num den + 1 - (double.minExponent + stepOf num den)) := two_zpow_div _ _
    _ ≤ 2 ^ (53 : ℤ) := zpow_le_zpow_right₀ (by norm_num) (by omega)
    _ = 2 ^ 53 := by norm_num

/-- Unless the step is the smallest one, the significand has all its bits. -/
theorem le_steps (hn : 0 < num) (hd : 0 < den) (hne : stepOf num den ≠ 0) :
    2 ^ 52 ≤ (num : ℚ) / den / 2 ^ (double.minExponent + stepOf num den) := by
  have hstep := stepOf_eq num den
  calc (2 : ℚ) ^ 52 = 2 ^ (52 : ℤ) := by norm_num
    _ ≤ 2 ^ (log2Quotient num den - (double.minExponent + stepOf num den)) :=
        zpow_le_zpow_right₀ (by norm_num) (by omega)
    _ = 2 ^ log2Quotient num den / 2 ^ (double.minExponent + stepOf num den) :=
        (two_zpow_div _ _).symm
    _ ≤ (num : ℚ) / den / 2 ^ (double.minExponent + stepOf num den) := by
        gcongr
        exact log2Quotient_le hn hd

/-- The bits that are taken for a quotient are of the double nearest to it. -/
theorem nearest_covers (hn : 0 < num) (hd : 0 < den)
    (hfinite : double.nearest num den < double.infinityBits) :
    Covers (significandOf (double.nearest num den)) (exponentOf (double.nearest num den))
      ((num : ℚ) / den) := by
  have hbits : double.nearest num den =
      roundToStep num den (double.minExponent + stepOf num den) + stepOf num den * 2 ^ 52 := by
    have := nearest_eq hn den
    omega
  rw [hbits]
  exact (roundToStep_isRounded hd _).covers (steps_lt hd) (le_steps hn hd)

/-! ## Whole numbers -/

theorem covers_zero : Covers (significandOf 0) (exponentOf 0) 0 := by
  have hm : significandOf 0 = 0 := by decide
  have hgap : (0 : ℚ) ≤ gap 0 (exponentOf 0) := by
    unfold gap
    split <;> norm_num
  rw [hm]
  refine ⟨?_, ?_, by norm_num⟩
  · unfold lowEnd
    have hpow : (0 : ℚ) < 2 ^ exponentOf 0 := by positivity
    push_cast
    nlinarith
  · unfold highEnd
    positivity

theorem nearest_whole_lt {n : ℕ} (hn : n < 2 ^ 64) : double.nearest n 1 < double.infinityBits := by
  have hmax : double.infinityBits = 2047 * 2 ^ 52 := by decide
  by_cases hzero : n = 0
  · subst hzero
    decide
  · have hpos : 0 < n := Nat.pos_of_ne_zero hzero
    have hsteps : roundToStep n 1 (double.minExponent + stepOf n 1) ≤ 2 ^ 53 :=
      (roundToStep_isRounded Nat.one_pos _).le (steps_lt Nat.one_pos)
    have hlog := (log2Quotient_bounds n 1).2
    have hlog' : n.log2 < 64 := (Nat.log2_lt hzero).mpr hn
    have hstep := stepOf_eq n 1
    have hmin := minExponent_double
    have := nearest_eq hpos 1
    omega

theorem nearest_whole_covers {n : ℕ} (hn : n < 2 ^ 64) :
    Covers (significandOf (double.nearest n 1)) (exponentOf (double.nearest n 1)) n := by
  by_cases hzero : n = 0
  · subst hzero
    exact_mod_cast covers_zero
  · simpa using nearest_covers (Nat.pos_of_ne_zero hzero) Nat.one_pos (nearest_whole_lt hn)

theorem gap_le_half (m : ℕ) (q : ℤ) : gap m q ≤ 1 / 2 := by
  unfold gap
  split <;> norm_num

/-- Where the step is not the smallest one, the significand has all its bits. -/
theorem le_significandOf {bits : ℕ} (h : double.minExponent < exponentOf bits) :
    2 ^ 52 ≤ significandOf bits := by
  unfold exponentOf at h
  unfold significandOf
  split at h <;> split <;> omega

/-- A step that is wider than one belongs to the doubles from two to the power of 53 on. -/
theorem le_lowEnd {bits : ℕ} (h : 0 < exponentOf bits) :
    (2 ^ 53 - 1 / 2 : ℚ) ≤ lowEnd (significandOf bits) (exponentOf bits) := by
  have hmin := minExponent_double
  have hgap := gap_le_half (significandOf bits) (exponentOf bits)
  have hfull : 2 ^ 52 ≤ significandOf bits := le_significandOf (by omega)
  have hsteps : (2 ^ 52 - 1 / 4 : ℚ) ≤ significandOf bits - gap (significandOf bits)
      (exponentOf bits) := by
    by_cases hpower : significandOf bits = 2 ^ 52
    · rw [hpower, gap, if_pos ⟨rfl, by omega⟩]
      norm_num
    · have hmore : (2 ^ 52 + 1 : ℚ) ≤ significandOf bits := by
        exact_mod_cast (show 2 ^ 52 + 1 ≤ significandOf bits by omega)
      linarith
  have htwo : (2 : ℚ) ^ (1 : ℤ) ≤ 2 ^ exponentOf bits := zpow_le_zpow_right₀ (by norm_num) h
  rw [zpow_one] at htwo
  unfold lowEnd
  nlinarith

/-- Below two to the power of 53 no whole number shares its double with another one. -/
theorem covers_whole {bits a b : ℕ} (ha : Covers (significandOf bits) (exponentOf bits) a)
    (hb : Covers (significandOf bits) (exponentOf bits) b) (hlt : a < b) : 2 ^ 53 ≤ a := by
  have hstep : (a : ℚ) + 1 ≤ b := by exact_mod_cast hlt
  have hgap := gap_le_half (significandOf bits) (exponentOf bits)
  have hlow := ha.low
  have hhigh := hb.high
  rcases lt_trichotomy (exponentOf bits) 0 with hneg | hzero | hpos
  · have hpow : (0 : ℚ) < 2 ^ exponentOf bits := by positivity
    have hhalf : (2 : ℚ) ^ exponentOf bits ≤ 2 ^ (-1 : ℤ) :=
      zpow_le_zpow_right₀ (by norm_num) (by omega)
    norm_num at hhalf
    unfold lowEnd at hlow
    unfold highEnd at hhigh
    nlinarith
  · unfold lowEnd at hlow
    unfold highEnd at hhigh
    rw [hzero, zpow_zero, mul_one] at hlow hhigh
    rw [hzero] at hgap
    have : 2 * significandOf bits ≤ 2 * a + 1 := by
      have : (2 * significandOf bits : ℚ) ≤ 2 * a + 1 := by linarith
      exact_mod_cast this
    have : 2 * b ≤ 2 * significandOf bits + 1 := by
      have : (2 * b : ℚ) ≤ 2 * significandOf bits + 1 := by linarith
      exact_mod_cast this
    omega
  · have hlarge := le_lowEnd hpos
    have : 2 ^ 54 ≤ 2 * a + 1 := by
      have : (2 ^ 54 : ℚ) ≤ 2 * a + 1 := by linarith
      exact_mod_cast this
    omega

/-! ## Numerals of whole numbers -/

/-- The numeral of a whole number is its digits. -/
theorem readDecimal?_natural (n : ℕ) :
    readDecimal? (Nat.toDigits 10 n) = some (.decimal (Nat.toDigits 10 n) 0) := by
  have hread := readDecimal?_whole (digits_isDigit n) Nat.toDigits_ne_nil (Text.stops_nil _)
    (e := 0) rfl
  rwa [List.append_nil] at hread

theorem nearestDecimal_natural {n : ℕ} (hn : n < 10 ^ 20) :
    double.nearestDecimal (Nat.toDigits 10 n) 0 = double.nearest n 1 := by
  by_cases hzero : n = 0
  · subst hzero
    decide
  · have hhead : (Nat.toDigits 10 n).dropWhile (· == '0') = Nat.toDigits 10 n := by
      obtain ⟨c, cs, hcs⟩ := List.exists_cons_of_ne_nil (Nat.toDigits_ne_nil (b := 10) (n := n))
      have hc := Text.head?_toDigits (Nat.pos_of_ne_zero hzero)
      rw [hcs] at hc ⊢
      exact List.dropWhile_cons_of_neg (by simpa using hc)
    have hlength := (Nat.length_toDigits_le_iff (b := 10) (k := 20) (by decide) (by decide)).mpr hn
    simp only [Format.nearestDecimal, hhead, Nat.ofDigitChars_ten_toDigits]
    rw [if_neg (by simp [Nat.toDigits_ne_nil]), if_neg (by omega), if_neg (by omega)]
    simp

end QueryLoom.Floating

namespace QueryLoom.Double
open Floating

structure IsNearest (x : Double) (n : ℤ) : Prop where
  finite : x.isFinite = true
  sign : x.isNegative = true ↔ n < 0
  covers : Covers (significandOf x.magnitudeBits) (exponentOf x.magnitudeBits) n.natAbs

variable {x y : Double} {m n : ℤ}

theorem IsNearest.unique (hx : x.IsNearest n) (hy : y.IsNearest n) : x = y :=
  bits_eq (Bool.eq_iff_iff.mpr (hx.sign.trans hy.sign.symm)) (covers_unique hx.covers hy.covers)

theorem ofMagnitudeBits_parts {bits : ℕ} (hbits : bits < double.signBit) (negative : Bool) :
    (ofMagnitudeBits negative bits).isNegative = negative ∧
      (ofMagnitudeBits negative bits).magnitudeBits = bits := by
  have hsign : double.signBit = 2 ^ 63 := by decide
  rw [hsign] at hbits
  simp only [ofMagnitudeBits, isNegative, magnitudeBits, hsign, UInt64.toNat_ofNat']
  cases negative <;> simp <;> omega

theorem ofInt_isNearest (hn : n.natAbs < 2 ^ 64) : (ofInt n).IsNearest n := by
  have hfinite := nearest_whole_lt hn
  have hmax : double.infinityBits < double.signBit := by decide
  have hrange : double.nearest n.natAbs 1 < double.signBit := by omega
  obtain ⟨hsign, hbits⟩ := ofMagnitudeBits_parts hrange (n < 0)
  constructor
  · rw [isFinite, ofInt, ofQuotient, hbits]
    exact decide_eq_true hfinite
  · rw [ofInt, ofQuotient, hsign, decide_eq_true_eq]
  · rw [ofInt, ofQuotient, hbits]
    exact nearest_whole_covers hn

theorem IsNearest.eq_zero (hx : x.IsNearest n) (hbits : x.magnitudeBits = 0) : n = 0 := by
  have hzero : Covers (significandOf 0) (exponentOf 0) ((0 : ℕ) : ℚ) := by
    exact_mod_cast covers_zero
  have hwhole := covers_whole hzero (hbits ▸ hx.covers)
  omega

/-- Whole numbers are the same as doubles exactly if one double is nearest to both. -/
theorem same_iff (hx : x.IsNearest m) (hy : y.IsNearest n) : x.same y = true ↔ x = y := by
  have hnan : ∀ z : Double, z.isFinite = true → z.isNaN = false := by
    intro z hz
    rw [isNaN, magnitude, magnitude_double (of_decide_eq_true hz)]
    rfl
  simp only [same, hnan x hx.finite, hnan y hy.finite, Bool.not_false, Bool.true_and,
    Bool.or_eq_true, Bool.and_eq_true, beq_iff_eq]
  constructor
  · rintro (heq | ⟨hxzero, hyzero⟩)
    · exact heq
    · have hm := hx.eq_zero hxzero
      have hn := hy.eq_zero hyzero
      exact hx.unique (hm ▸ hn ▸ hy)
  · exact Or.inl

/-- Only from two to the power of 53 on is one double nearest to several whole numbers. -/
theorem IsNearest.eq_of_small (hm : x.IsNearest m) (hn : x.IsNearest n)
    (hsmall : m.natAbs < 2 ^ 53 ∨ n.natAbs < 2 ^ 53) : m = n := by
  have hsign : m < 0 ↔ n < 0 := hm.sign.symm.trans hn.sign
  have habs : m.natAbs = n.natAbs := by
    rcases lt_trichotomy m.natAbs n.natAbs with hlt | heq | hgt
    · have := covers_whole hm.covers hn.covers hlt
      omega
    · exact heq
    · have := covers_whole hn.covers hm.covers hgt
      omega
  omega

/-- The numeral of a whole number is read as the double nearest to it. -/
theorem read_integer (hn : n.natAbs < 10 ^ 20) :
    read (Text.integer n) = .ok (ofInt n) := by
  have hread := readDecimal?_natural n.natAbs
  have hsign : takeSign (Text.integer n).toList = (decide (n < 0), Nat.toDigits 10 n.natAbs) := by
    unfold Text.integer Text.natural
    split
    · rename_i h
      simp [takeSign, h]
    · rename_i h
      simp only [String.toList_ofList, h, decide_false]
      exact takeSign_unsigned hread
  have hempty : ¬ (Text.integer n).isEmpty = true := by
    intro h
    rw [String.isEmpty_iff.mp h] at hsign
    exact Nat.toDigits_ne_nil (Prod.mk.inj hsign).2.symm
  rw [read, readNumeral, if_neg hempty, hsign]
  simp [hread, Except.map, Format.ofNumeral, nearestDecimal_natural hn, ofInt, ofQuotient]

end QueryLoom.Double
