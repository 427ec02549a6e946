import Mathlib.Algebra.Order.Field.Power
import Mathlib.Order.Monotone.Basic
import Mathlib.Tactic.Linarith
import Mathlib.Tactic.NormNum
import Mathlib.Tactic.Positivity
import Mathlib.Tactic.Ring
import QueryLoom.Floating.Shortest

/-!
# Rounding intervals

The numbers nearest to a double lie between the midpoints to its neighbours. These intervals
follow each other without a gap as the bits count up, and the number that two of them share
belongs to the one with the even significand, so no number belongs to two doubles.
-/

set_option autoImplicit false

namespace QueryLoom.Floating

def significandOf (bits : Nat) : Nat :=
  if bits / 2 ^ 52 = 0 then bits % 2 ^ 52 else bits % 2 ^ 52 + 2 ^ 52

def exponentOf (bits : Nat) : Int :=
  if bits / 2 ^ 52 = 0 then double.minExponent
  else double.minExponent + (bits / 2 ^ 52 : Nat) - 1

theorem minExponent_double : double.minExponent = -1074 := by decide

theorem magnitude_double {bits : Nat} (h : bits < double.infinityBits) :
    double.magnitude bits = .finite (significandOf bits) (exponentOf bits) := by
  have hmax : double.infinityBits = 2047 * 2 ^ 52 := by decide
  have hexponent : bits / Nat.pow 2 (double.precision - 1) ≠ Nat.pow 2 double.exponentBits - 1 := by
    rw [hmax] at h
    simp only [double, Nat.pow_eq]
    omega
  have hfraction : Nat.pow 2 (double.precision - 1) = 2 ^ 52 := by decide
  rw [Format.magnitude, if_neg hexponent, hfraction]
  unfold significandOf exponentOf
  split <;> rfl

/-- The part of a step that reaches down to the lower midpoint. -/
def gap (m : Nat) (q : Int) : ℚ := if m = 2 ^ 52 ∧ double.minExponent < q then 1 / 4 else 1 / 2

def lowEnd (m : Nat) (q : Int) : ℚ := (m - gap m q) * 2 ^ q

def highEnd (m : Nat) (q : Int) : ℚ := (m + 1 / 2) * 2 ^ q

/-- The number is nearest to `m * 2 ^ q`. -/
structure Covers (m : Nat) (q : Int) (x : ℚ) : Prop where
  low : lowEnd m q ≤ x
  high : x ≤ highEnd m q
  strict : m % 2 = 1 → lowEnd m q < x ∧ x < highEnd m q

def lowBits (bits : Nat) : ℚ := lowEnd (significandOf bits) (exponentOf bits)

/-- One interval ends where the next one begins. -/
theorem highEnd_bits (bits : Nat) :
    highEnd (significandOf bits) (exponentOf bits) = lowBits (bits + 1) := by
  unfold lowBits highEnd lowEnd
  by_cases hlast : bits % 2 ^ 52 + 1 = 2 ^ 52
  · have hdiv : (bits + 1) / 2 ^ 52 = bits / 2 ^ 52 + 1 := by omega
    have hmod : (bits + 1) % 2 ^ 52 = 0 := by omega
    have hfraction : bits % 2 ^ 52 = 2 ^ 52 - 1 := by omega
    by_cases hzero : bits / 2 ^ 52 = 0
    · simp only [significandOf, exponentOf, gap, hdiv, hmod, hzero, hfraction]
      norm_num
    · have hexponent : exponentOf (bits + 1) = exponentOf bits + 1 := by
        simp only [exponentOf, hdiv, hzero, if_false]
        push_cast
        ring
      have hmin : double.minExponent < exponentOf (bits + 1) := by
        simp only [exponentOf, hdiv]
        omega
      have hnext : significandOf (bits + 1) = 2 ^ 52 := by
        rw [significandOf, hdiv, hmod, if_neg (by omega), Nat.zero_add]
      rw [gap, if_pos ⟨hnext, hmin⟩, hexponent, zpow_add₀ (by norm_num), hnext]
      simp only [significandOf, hzero, hfraction]
      norm_num
      ring
  · have hdiv : (bits + 1) / 2 ^ 52 = bits / 2 ^ 52 := by omega
    have hmod : (bits + 1) % 2 ^ 52 = bits % 2 ^ 52 + 1 := by omega
    have hexponent : exponentOf (bits + 1) = exponentOf bits := by
      rw [exponentOf, exponentOf, hdiv]
    have hsignificand : significandOf (bits + 1) = significandOf bits + 1 := by
      simp only [significandOf, hdiv, hmod]
      split <;> omega
    have hgap : gap (significandOf bits + 1) (exponentOf bits) = 1 / 2 := by
      unfold gap significandOf exponentOf
      rw [if_neg]
      split <;> omega
    rw [hexponent, hsignificand, hgap]
    push_cast
    ring

theorem lowBits_lt (bits : Nat) : lowBits bits < lowBits (bits + 1) := by
  rw [← highEnd_bits]
  have hgap : 0 < gap (significandOf bits) (exponentOf bits) := by
    unfold gap
    split <;> norm_num
  have hpow : (0 : ℚ) < 2 ^ exponentOf bits := by positivity
  exact mul_lt_mul_of_pos_right (by linarith) hpow

theorem lowBits_strictMono : StrictMono lowBits := strictMono_nat_of_lt_succ lowBits_lt

theorem significandOf_mod_two (bits : Nat) : significandOf bits % 2 = bits % 2 := by
  unfold significandOf
  split <;> omega

/-- No number is nearest to two doubles. -/
theorem covers_unique {b c : Nat} {x : ℚ}
    (hb : Covers (significandOf b) (exponentOf b) x)
    (hc : Covers (significandOf c) (exponentOf c) x) : b = c := by
  have hdisjoint : ∀ {b c : Nat}, b < c → Covers (significandOf b) (exponentOf b) x →
      Covers (significandOf c) (exponentOf c) x → False := by
    intro b c hlt hb hc
    have hup : x ≤ lowBits (b + 1) := highEnd_bits b ▸ hb.high
    have hmono : lowBits (b + 1) ≤ lowBits c := lowBits_strictMono.monotone hlt
    have hlow : lowBits c ≤ x := hc.low
    have hnext : b + 1 = c :=
      lowBits_strictMono.injective (le_antisymm hmono (hlow.trans hup))
    have hb' := hb.strict
    have hc' := hc.strict
    rw [significandOf_mod_two] at hb' hc'
    rcases Nat.mod_two_eq_zero_or_one b with hpar | hpar
    · have hstrict : lowBits c < x := (hc' (by omega)).1
      exact absurd (hnext ▸ hup) (not_le.mpr hstrict)
    · have hstrict : x < lowBits (b + 1) := highEnd_bits b ▸ (hb' hpar).2
      exact absurd (hnext ▸ hlow) (not_le.mpr hstrict)
  rcases Nat.lt_trichotomy b c with hlt | heq | hgt
  · exact (hdisjoint hlt hb hc).elim
  · exact heq
  · exact (hdisjoint hgt hc hb).elim

end QueryLoom.Floating
