import QueryLoom.Calendar.Reader
import QueryLoom.Proofs.Text.Digits

/-!
# Dates and times read back

Both grammars read what is written. The loose one reads every date and time of the calendar, leap
seconds and years of any length included, back from its text. The strict one reads a moment back if
its year has four digits and no sign, and refuses it otherwise.
-/

set_option autoImplicit false

namespace QueryLoom

open Text (Stops paddedDigits)

namespace Calendar.Scan

variable {ds rest : List Char}

/-! ## Fields -/

theorem digits_run (least : Nat) (most : Option Nat) (hds : ∀ c ∈ ds, c.isDigit = true)
    (hleast : least ≤ ds.length)
    (hmost : most = some ds.length ∨ most = none ∧ Stops Char.isDigit rest) :
    (digits least most).run (ds ++ rest) = some (ds, rest) := by
  have htaken : ((ds ++ rest).takeWhile Char.isDigit).take
      (most.getD ((ds ++ rest).takeWhile Char.isDigit).length) = ds := by
    rcases hmost with rfl | ⟨rfl, hstop⟩
    · rw [List.takeWhile_append_of_pos hds, Option.getD_some, List.take_left]
    · rw [Text.takeWhile_append hds hstop, Option.getD_none, List.take_length]
  simp only [digits, StateT.run, htaken, hleast, if_true, List.drop_left]

theorem natural_run (least : Nat) (most : Option Nat) (hds : ∀ c ∈ ds, c.isDigit = true)
    (hleast : least ≤ ds.length)
    (hmost : most = some ds.length ∨ most = none ∧ Stops Char.isDigit rest) :
    (natural least most).run (ds ++ rest) = some (Nat.ofDigitChars 10 ds 0, rest) := by
  simp [natural, digits_run least most hds hleast hmost]

theorem mark_run (c : Char) (rest : List Char) : (mark c).run (c :: rest) = some ((), rest) := by
  simp [mark, StateT.run]

theorem blanks_run (h : Stops Text.isBlank rest) : blanks.run rest = some ((), rest) := by
  have htrim : ([] ++ rest).dropWhile Text.isBlank = rest := Text.dropWhile_append (by simp) h
  exact congrArg (fun cs => some ((), cs)) htrim

theorem blanks_cons {c : Char} (hc : Text.isBlank c = true) (rest : List Char) :
    blanks.run (c :: rest) = blanks.run rest := by
  have htrim : Text.trimStart (c :: rest) = Text.trimStart rest := List.dropWhile_cons_of_pos hc
  exact congrArg (fun cs => some ((), cs)) htrim

/-- As many digits as there have to be. -/
theorem padded_run (width : Nat) {least n : Nat} (hwidth : 0 < width) (hleast : least ≤ width)
    (hn : n < Nat.pow 10 width) (rest : List Char) :
    (natural least (some width)).run (paddedDigits width n ++ rest) = some (n, rest) := by
  have hlength := Text.length_paddedDigits hwidth hn
  rw [natural_run least _ (Text.paddedDigits_isDigit width n) (by omega) (Or.inl (by rw [hlength])),
    Text.value_paddedDigits]

theorem pair_run {n : Nat} (hn : n < 100) (rest : List Char) :
    pair.run (paddedDigits 2 n ++ rest) = some (n, rest) :=
  padded_run 2 (by decide) Nat.le.refl hn rest

theorem short_run {n : Nat} (hn : n < 100) (rest : List Char) :
    short.run (paddedDigits 2 n ++ rest) = some (n, rest) := by
  have hblank := Text.paddedDigits_stops (show 0 < 2 by decide) n rest
  have hfield := padded_run 2 (by decide) (show 1 ≤ 2 by decide) hn rest
  rw [short, StateT.run_bind, blanks_run hblank, Option.bind_eq_bind, Option.bind_some]
  exact hfield

/-- Any number of digits, up to a character that is none. -/
theorem long_run (width n : Nat) {least : Nat} (hleast : least ≤ width)
    (hstop : Stops Char.isDigit rest) :
    (natural least none).run (paddedDigits width n ++ rest) = some (n, rest) := by
  have hlength := Text.width_le_length_paddedDigits width n
  rw [natural_run least _ (Text.paddedDigits_isDigit width n) (by omega) (Or.inr ⟨rfl, hstop⟩),
    Text.value_paddedDigits]

theorem year_run (y : Int) (hstop : Stops Char.isDigit rest) :
    year.run ((Date.yearText y).toList ++ rest) = some (y, rest) := by
  have hlong := long_run 4 y.natAbs (show 1 ≤ 4 by decide) hstop
  unfold Date.yearText
  generalize hk : y.natAbs = k at hlong ⊢
  split
  case isTrue hneg =>
    have hblank : Stops Text.isBlank ('-' :: (paddedDigits 4 k ++ rest)) :=
      Text.stops_cons (by decide) _
    simp [year, blanks_run hblank, hlong]
    omega
  case isFalse hpos =>
    split
    case isTrue hlarge =>
      have hblank : Stops Text.isBlank ('+' :: (paddedDigits 4 k ++ rest)) :=
        Text.stops_cons (by decide) _
      simp [year, blanks_run hblank, hlong]
      omega
    case isFalse hsmall =>
      have hshort := padded_run 4 (by decide) (show 1 ≤ 4 by decide)
        (show k < 10000 by omega) rest
      have hblank := Text.paddedDigits_stops (show 0 < 4 by decide) k rest
      obtain ⟨c, cs, hcs, hc⟩ := Text.paddedDigits_cons (show 0 < 4 by decide) k
      rw [hcs, List.cons_append] at hshort hblank
      rw [Text.toList_paddedNatural, hcs, List.cons_append, year, StateT.run_bind,
        blanks_run hblank, Option.bind_eq_bind, Option.bind_some]
      -- A digit is no sign, so only the last alternative is left.
      have hminus : c ≠ '-' := by
        rintro rfl
        cases hc
      have hplus : c ≠ '+' := by
        rintro rfl
        cases hc
      simp [hminus, hplus, hshort]
      omega

def isFractional (c : Char) : Bool := c.isDigit || c == '.'

theorem stops_isDigit (hend : Stops isFractional rest) : Stops Char.isDigit rest := fun c hc => by
  have hfractional := hend c hc
  simp only [isFractional, Bool.or_eq_false_iff] at hfractional
  exact hfractional.1

theorem fraction_none (hend : Stops isFractional rest) : fraction.run rest = some (0, rest) := by
  cases rest with
  | nil => rfl
  | cons c cs =>
    have hpoint : c ≠ '.' := by
      rintro rfl
      cases hend '.' rfl
    simp [fraction, hpoint]

/-- A fraction of fewer than nine digits counts as if zeros stood behind it. -/
theorem fraction_padded (width : Nat) {n : Nat} (hwidth : 0 < width) (hmost : width ≤ 9)
    (hn : n < Nat.pow 10 width) (hend : Stops isFractional rest) :
    fraction.run ('.' :: (paddedDigits width n ++ rest)) =
      some (Nat.pow 10 (9 - width) * n, rest) := by
  have hlength := Text.length_paddedDigits hwidth hn
  have hdigits := digits_run 1 none (Text.paddedDigits_isDigit width n)
    (by omega) (Or.inr ⟨rfl, stops_isDigit hend⟩)
  have htake : (paddedDigits width n).take 9 = paddedDigits width n :=
    List.take_of_length_le (by omega)
  have hvalue : Nat.ofDigitChars 10
      (paddedDigits width n ++ List.replicate (9 - width) '0') 0 = Nat.pow 10 (9 - width) * n := by
    rw [Nat.ofDigitChars_append, Text.value_paddedDigits, Nat.ofDigitChars_replicate_zero]
    rfl
  simp [fraction, hdigits, htake, hlength, hvalue]

theorem fraction_run {nano : Nat} (hnano : nano < Time.nanosPerSecond)
    (hend : Stops isFractional rest) :
    fraction.run ((Time.fractionText nano).toList ++ rest) = some (nano, rest) := by
  unfold Time.nanosPerSecond at hnano
  unfold Time.fractionText
  split
  case isTrue hzero =>
    rw [hzero]
    exact fraction_none hend
  case isFalse =>
    split
    case isTrue hmilli =>
      have hread := fraction_padded 3 (by decide) (by decide)
        (show nano / 1000000 < 1000 by omega) hend
      have hvalue : 1000000 * (nano / 1000000) = nano := by omega
      simpa [hvalue] using hread
    case isFalse =>
      split
      case isTrue hmicro =>
        have hread := fraction_padded 6 (by decide) (by decide)
          (show nano / 1000 < 1000000 by omega) hend
        have hvalue : 1000 * (nano / 1000) = nano := by omega
        simpa [hvalue] using hread
      case isFalse =>
        have hread := fraction_padded 9 (by decide) (by decide) hnano hend
        simpa using hread

end Calendar.Scan

/-! ## Dates and times -/

namespace Date

theorem toList_text (d : Date) : d.text.toList = (yearText d.year).toList ++
    '-' :: (paddedDigits 2 d.month ++ '-' :: paddedDigits 2 d.day) := by
  simp [text]

theorem monthLength_le (y : Int) (m : Nat) : monthLength y m ≤ 31 := by
  unfold monthLength
  split
  case h_1 => split <;> decide
  all_goals decide

theorem fields_lt {d : Date} (h : d.isValid = true) : d.month < 100 ∧ d.day < 100 := by
  have hlength := monthLength_le d.year d.month
  simp only [isValid, Bool.and_eq_true, decide_eq_true_eq] at h
  omega

end Date

namespace Time

theorem toList_text (t : Time) : t.text.toList = paddedDigits 2 t.hour ++
    ':' :: (paddedDigits 2 t.minute ++
      ':' :: (paddedDigits 2 (t.second + t.nano / nanosPerSecond) ++
        (fractionText (t.nano % nanosPerSecond)).toList)) := by
  simp [text]

/-- A time is ordinary, or the leap second that is written as the sixtieth. -/
theorem isValid_cases {t : Time} (h : t.isValid = true) :
    t.hour < 24 ∧ t.minute < 60 ∧
      (t.second < 60 ∧ t.nano < nanosPerSecond ∨
        t.second = 59 ∧ nanosPerSecond ≤ t.nano ∧ t.nano < 2 * nanosPerSecond) := by
  simp only [isValid, Bool.and_eq_true, Bool.or_eq_true, decide_eq_true_eq, beq_iff_eq] at h
  omega

theorem fields_lt {t : Time} (h : t.isValid = true) :
    t.hour < 100 ∧ t.minute < 100 ∧ t.second + t.nano / nanosPerSecond < 100 := by
  obtain ⟨hhour, hminute, hsecond⟩ := isValid_cases h
  unfold nanosPerSecond at hsecond ⊢
  omega

end Time

namespace Calendar.Scan

variable {rest : List Char}

theorem checkedDate_run {d : Date} (h : d.isValid = true) (cs : List Char) :
    (checkedDate d.year d.month d.day).run cs = some (d, cs) := by
  simp [checkedDate, h]

theorem checkedTime_run {t : Time} (h : t.isValid = true) (cs : List Char) :
    (checkedTime t.hour t.minute (t.second + t.nano / Time.nanosPerSecond)
      (t.nano % Time.nanosPerSecond)).run cs = some (t, cs) := by
  have hread : (if t.second + t.nano / Time.nanosPerSecond = 60 then
      ⟨t.hour, t.minute, 59, t.nano % Time.nanosPerSecond + Time.nanosPerSecond⟩
      else ⟨t.hour, t.minute, t.second + t.nano / Time.nanosPerSecond,
        t.nano % Time.nanosPerSecond⟩ : Time) = t := by
    obtain ⟨-, -, ⟨hsecond, hnano⟩ | ⟨hsecond, hleast, hmost⟩⟩ := Time.isValid_cases h
    · rw [Nat.div_eq_of_lt hnano, Nat.mod_eq_of_lt hnano, Nat.add_zero, if_neg (by omega)]
    · have hdiv : t.nano / Time.nanosPerSecond = 1 := by
        unfold Time.nanosPerSecond at *
        omega
      have hmod : t.nano % Time.nanosPerSecond + Time.nanosPerSecond = t.nano := by
        unfold Time.nanosPerSecond at *
        omega
      rw [hdiv, hsecond, if_pos rfl, hmod, ← hsecond]
  simp only [checkedTime, hread, h, if_true, StateT.run_pure]
  rfl

theorem date_run {d : Date} (h : d.isValid = true) (rest : List Char) :
    date.run (d.text.toList ++ rest) = some (d, rest) := by
  obtain ⟨hmonth, hday⟩ := Date.fields_lt h
  have hyear := year_run d.year (Text.stops_cons (show Char.isDigit '-' = false by decide)
    (paddedDigits 2 d.month ++ '-' :: (paddedDigits 2 d.day ++ rest)))
  rw [Date.toList_text]
  simp only [List.append_assoc, List.cons_append, date, StateT.run_bind, hyear, mark_run,
    short_run hmonth, short_run hday, checkedDate_run h, Option.bind_eq_bind, Option.bind_some]

theorem time_run {t : Time} (h : t.isValid = true) (hend : Stops isFractional rest) :
    time.run (t.text.toList ++ rest) = some (t, rest) := by
  obtain ⟨hhour, hminute, hsecond⟩ := Time.fields_lt h
  have hfraction := fraction_run (Nat.mod_lt t.nano (show 0 < Time.nanosPerSecond by decide)) hend
  rw [Time.toList_text]
  simp only [List.append_assoc, List.cons_append, time, StateT.run_bind, mark_run,
    short_run hhour, short_run hminute, short_run hsecond, hfraction, checkedTime_run h,
    Option.bind_eq_bind, Option.bind_some]

/-! ## The strict grammar -/

theorem yearText_short {y : Int} (hleast : 0 ≤ y) (hmost : y ≤ 9999) :
    Date.yearText y = Text.paddedNatural 4 y.natAbs := by
  rw [Date.yearText, if_neg (by omega), if_neg (by omega)]

theorem strictDate_run {d : Date} (h : d.isValid = true) (hleast : 0 ≤ d.year)
    (hmost : d.year ≤ 9999) (rest : List Char) :
    strictDate.run (d.text.toList ++ rest) = some (d, rest) := by
  obtain ⟨hmonth, hday⟩ := Date.fields_lt h
  have hfour := padded_run 4 (by decide) (Nat.le_refl 4) (show d.year.natAbs < 10000 by omega)
  have hyear : (d.year.natAbs : Int) = d.year := by omega
  rw [Date.toList_text, yearText_short hleast hmost, Text.toList_paddedNatural]
  simp only [List.append_assoc, List.cons_append, strictDate, StateT.run_bind, hfour, mark_run,
    pair_run hmonth, pair_run hday, hyear, checkedDate_run h, Option.bind_eq_bind, Option.bind_some]

/-- A year with a sign is no four digits. -/
theorem strictDate_signed {d : Date} (hyear : ¬ (0 ≤ d.year ∧ d.year ≤ 9999)) (rest : List Char) :
    strictDate.run (d.text.toList ++ rest) = none := by
  have hsign : ∃ c cs, (Date.yearText d.year).toList = c :: cs ∧ c.isDigit = false := by
    unfold Date.yearText
    split
    · exact ⟨'-', paddedDigits 4 d.year.natAbs, by simp, by decide⟩
    · rw [if_pos (by omega)]
      exact ⟨'+', paddedDigits 4 d.year.natAbs, by simp, by decide⟩
  obtain ⟨c, cs, hcs, hc⟩ := hsign
  have hdigits : ∀ more, (digits 4 (some 4)).run (c :: more) = none := by
    intro more
    simp [digits, StateT.run, hc]
  rw [Date.toList_text, hcs]
  simp [strictDate, natural, hdigits]

theorem strictTime_run {t : Time} (h : t.isValid = true) (hend : Stops isFractional rest) :
    strictTime.run (t.text.toList ++ rest) = some (t, rest) := by
  obtain ⟨hhour, hminute, hsecond⟩ := Time.fields_lt h
  have hfraction := fraction_run (Nat.mod_lt t.nano (show 0 < Time.nanosPerSecond by decide)) hend
  rw [Time.toList_text]
  simp only [List.append_assoc, List.cons_append, strictTime, StateT.run_bind, mark_run,
    pair_run hhour, pair_run hminute, pair_run hsecond, hfraction, checkedTime_run h,
    Option.bind_eq_bind, Option.bind_some]

/-! ## Whole texts -/

theorem complete?_eq {α : Type} {scan : Scan α} {s : String} {a : α}
    (h : scan.run s.toList = some (a, [])) : scan.complete? s = some a := by
  simp [complete?, h]

end Calendar.Scan

open Calendar.Scan

theorem Date.read?_text {d : Date} (h : d.isValid = true) : read? d.text = some d :=
  complete?_eq (by simpa using date_run h [])

theorem Time.read?_text {t : Time} (h : t.isValid = true) : read? t.text = some t :=
  complete?_eq (by simpa using time_run h (Text.stops_nil _))

namespace DateTime

theorem read?_text {t : DateTime} (hdate : t.date.isValid = true)
    (htime : t.time.isValid = true) : read? t.text = some t := by
  have hstop : Stops Text.isBlank t.time.text.toList := by
    rw [Time.toList_text]
    exact Text.paddedDigits_stops (by decide) _ _
  have hread := time_run htime (Text.stops_nil _)
  rw [List.append_nil] at hread
  rw [DateTime.read?, complete?_eq (a := t)]
  · rfl
  · simp [dateTime, text, date_run hdate, blanks_cons (show Text.isBlank ' ' = true by decide),
      blanks_run hstop, hread]

/-- The offset of universal time. -/
theorem toList_utcText (t : DateTime) : t.utcText.toList =
    t.date.text.toList ++ 'T' :: (t.time.text.toList ++ ['+', '0', '0', ':', '0', '0']) := by
  simp [utcText]

theorem readWithOffset?_utcText {t : DateTime} (hdate : t.date.isValid = true)
    (htime : t.time.isValid = true) (hleast : 0 ≤ t.date.year) (hmost : t.date.year ≤ 9999) :
    readWithOffset? t.utcText = some (t, 0) := by
  have hread := strictTime_run htime (Text.stops_cons (show isFractional '+' = false by decide)
    ['0', '0', ':', '0', '0'])
  have hoffset : offset.run ['+', '0', '0', ':', '0', '0'] = some (0, []) := by decide
  have hseparator : ∀ cs, (mark 'T' <|> mark 't' <|> mark ' ').run ('T' :: cs) = some ((), cs) :=
    fun _ => rfl
  apply complete?_eq
  rw [toList_utcText]
  simp only [moment, StateT.run_bind, strictDate_run hdate hleast hmost, hseparator, hread, hoffset,
    Option.bind_eq_bind, Option.bind_some]
  rfl

theorem readWithOffset?_signed {t : DateTime}
    (hyear : ¬ (0 ≤ t.date.year ∧ t.date.year ≤ 9999)) : readWithOffset? t.utcText = none := by
  rw [readWithOffset?, complete?, toList_utcText]
  simp [moment, strictDate_signed hyear]

end DateTime

end QueryLoom
