import QueryLoom.Calendar.Basic

/-!
# Days of the calendar

Counting days from the first of January 2000 and naming the day that is reached are inverse to one
another, before and after that day without end, and so are counting nanoseconds and naming a point
in time.
-/

set_option autoImplicit false

namespace QueryLoom

namespace Date

/-- Centuries, periods of four years and single years of a day within a cycle of four hundred
years. The last year of a period has the leap day, and the last day of the cycle is one. -/
theorem yearOfCycle_eq {n c q s t : Nat} (hn : n = 36524 * c + 1461 * q + s) (hc : c ≤ 3)
    (hq : q ≤ 24) (hs : s < 1461) (hlast : q = 24 → s < 1460) (ht : t = min 3 (s / 365)) :
    (n - n / 1460 + n / 36524 - n / 146096) / 365 = 100 * c + 4 * q + t := by
  have hcentury : n / 36524 = c := by omega
  have hcycle : n / 146096 = 0 := by omega
  -- The leap days on the way are one too many from shortly before the last day of a period on.
  have hperiod : n / 1460 = 25 * c + q ∨ n / 1460 = 25 * c + q + 1 ∧ 1364 ≤ s := by omega
  rw [hcentury, hcycle]
  rcases hperiod with h | ⟨h, hlate⟩ <;> rw [h] <;> omega

theorem yearOfCycle_bounds {n y : Nat} (hn : n < 146097)
    (hy : y = (n - n / 1460 + n / 36524 - n / 146096) / 365) :
    y < 400 ∧ 365 * y + y / 4 - y / 100 ≤ n ∧ n - (365 * y + y / 4 - y / 100) ≤ 365 := by
  by_cases hend : n = 146096
  · subst hend hy
    decide
  · have heq := yearOfCycle_eq (n := n) (c := n / 36524) (q := n % 36524 / 1461)
      (s := n % 36524 % 1461) (by omega) (by omega) (by omega) (by omega) (by omega) rfl
    rw [← hy] at heq
    have hperiod : y / 4 = 25 * (n / 36524) + n % 36524 / 1461 := by omega
    have hcentury : y / 100 = n / 36524 := by omega
    omega

/-- A day of a year that begins in March is a day of one of its twelve months. -/
theorem month_bounds {n m : Nat} (hn : n ≤ 365) (hm : m = (5 * n + 2) / 153) :
    m < 12 ∧ daysBeforeMonth m ≤ n := by
  unfold daysBeforeMonth
  omega

theorem daysBeforeMarchYear_cycle (k : Int) {y : Nat} (hy : y < 400) :
    daysBeforeMarchYear (400 * k + y) = 146097 * k + (365 * y + y / 4 - y / 100 : Nat) := by
  have hfour : (400 * k + y) / 4 = 100 * k + (y / 4 : Nat) := by omega
  have hcentury : (400 * k + y) / 100 = 4 * k + (y / 100 : Nat) := by omega
  have hcycle : (400 * k + y) / 400 = k := by omega
  rw [daysBeforeMarchYear, hfour, hcentury, hcycle]
  omega

/-- The day that is so many days away is counted as so many days. -/
theorem toDays_ofDays (n : Int) : (ofDays n).toDays = n := by
  have hcycle : (n + epoch) % 146097 = ((n + epoch) % 146097).toNat := by omega
  have hlt : ((n + epoch) % 146097).toNat < 146097 := by omega
  simp only [ofDays]
  generalize ((n + epoch) % 146097).toNat = day at hcycle hlt ⊢
  obtain ⟨hy, hle, hyear⟩ := yearOfCycle_bounds hlt rfl
  generalize (day - day / 1460 + day / 36524 - day / 146096) / 365 = y at hy hle hyear ⊢
  have hmarch := daysBeforeMarchYear_cycle ((n + epoch) / 146097) hy
  obtain ⟨hm, hbefore⟩ := month_bounds hyear rfl
  generalize hd : day - (365 * y + y / 4 - y / 100) = d at hm hbefore ⊢
  generalize (5 * d + 2) / 153 = m at hm hbefore ⊢
  -- Years begin in March, so January and February are months of the year after.
  by_cases hturn : m < 10
  · have hmonth : ¬ m + 3 ≤ 2 := by omega
    simp only [hturn, if_true, toDays, hmonth, if_false, hmarch, Nat.add_sub_cancel]
    omega
  · have hmonth : m - 9 ≤ 2 := by omega
    have hback : m - 9 + 9 = m := by omega
    simp only [hturn, if_false, toDays, hmonth, if_true, Int.add_sub_cancel, hmarch, hback]
    omega

end Date

namespace Time

theorem nanosOfDay_ofNanosOfDay (n : Nat) : (ofNanosOfDay n).nanosOfDay = n := by
  simp only [ofNanosOfDay, nanosOfDay, nanosPerSecond]
  omega

theorem isValid_ofNanosOfDay {n : Nat} (h : n < DateTime.nanosPerDay) :
    (ofNanosOfDay n).isValid = true := by
  have hn : n < 86400 * 1000000000 := h
  simp only [isValid, Bool.and_eq_true, Bool.or_eq_true, decide_eq_true_eq]
  simp only [ofNanosOfDay, nanosPerSecond]
  omega

end Time

namespace DateTime

theorem nanosOfDay_bounds (n : Int) :
    0 ≤ n % nanosPerDay ∧ (n % nanosPerDay).toNat < nanosPerDay := by
  have hpos : (0 : Int) < nanosPerDay := by decide
  have hleast := Int.emod_nonneg n (Int.ne_of_gt hpos)
  have hlt := Int.emod_lt_of_pos n hpos
  omega

/-- The point in time that is so many nanoseconds away is counted as so many nanoseconds. -/
theorem toNanos_ofNanos (n : Int) : (ofNanos n).toNanos = n := by
  have hleast := (nanosOfDay_bounds n).1
  have hsplit := Int.mul_ediv_add_emod n nanosPerDay
  rw [toNanos, ofNanos, Date.toDays_ofDays, Time.nanosOfDay_ofNanosOfDay]
  rw [Int.mul_comm] at hsplit
  omega

theorem isValid_time_ofNanos (n : Int) : (ofNanos n).time.isValid = true :=
  Time.isValid_ofNanosOfDay (nanosOfDay_bounds n).2

end DateTime

end QueryLoom
