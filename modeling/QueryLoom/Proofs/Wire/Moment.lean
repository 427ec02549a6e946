import QueryLoom.Proofs.Calendar.Days
import QueryLoom.Proofs.Calendar.Reader
import QueryLoom.Proofs.Wire.Bytes
import QueryLoom.Wire.Decode
import QueryLoom.Wire.Encode

/-!
# Dates and times written back

A date or a time that was fetched is a text. Bound to a parameter of the type that it came from,
the text gives the bytes of the cell again, whatever the year is and however many digits the
fraction has. Only a moment with an offset is turned away if its year does not have four digits,
because the strict grammar knows neither longer years nor a sign.
-/

set_option autoImplicit false

namespace QueryLoom

namespace Wire

variable {raw : List UInt8}

def momentOf (raw : List UInt8) : DateTime := DateTime.ofNanos (signed raw * (nanosPerMicro : Int))

/-- What a number stands for, if it is anything that is valid. -/
theorem signed?_checked {α : Type} {width : Nat} (f : Int → α) (valid : α → Bool) {a : α} :
    ((signed? width raw).bind fun n => if valid (f n) then some (f n) else none) = some a ↔
      raw.length = width ∧ valid a = true ∧ a = f (signed raw) := by
  simp only [Option.bind_eq_some_iff, signed?_eq_some, Option.ite_none_right_eq_some,
    Option.some.injEq]
  constructor
  · rintro ⟨_, ⟨hlength, rfl⟩, hvalid, rfl⟩
    exact ⟨hlength, hvalid, rfl⟩
  · rintro ⟨hlength, hvalid, rfl⟩
    exact ⟨_, ⟨hlength, rfl⟩, hvalid, rfl⟩

theorem decodeDate?_eq_some {d : Date} :
    decodeDate? raw = some d ↔
      raw.length = 4 ∧ d.isValid = true ∧ d = Date.ofDays (signed raw) :=
  signed?_checked Date.ofDays Date.isValid

theorem decodeDateTime?_eq_some {t : DateTime} :
    decodeDateTime? raw = some t ↔
      raw.length = 8 ∧ t.date.isValid = true ∧ t = momentOf raw :=
  signed?_checked (fun micros => DateTime.ofNanos (micros * nanosPerMicro))
    fun t : DateTime => t.date.isValid

/-! ## The same number again -/

theorem encodeDate_ofDays (h : raw.length = 4) : encodeDate (Date.ofDays (signed raw)) = raw := by
  rw [encodeDate, Date.toDays_ofDays, ← h, signedWord_signed]

theorem encodeDateTime_momentOf (h : raw.length = 8) : encodeDateTime (momentOf raw) = raw := by
  rw [encodeDateTime, microsOf, momentOf, DateTime.toNanos_ofNanos,
    Int.mul_tdiv_cancel _ (by decide), ← h, signedWord_signed]

theorem encodeMoment_zero (t : DateTime) : encodeMoment t 0 = encodeDateTime t := by
  rw [encodeMoment, Int.zero_mul, Int.sub_zero]
  rfl

/-- Only full days are lost of a time of day. -/
theorem encodeTime_decoded {t : Time} (h : decodeTime? raw = some t) :
    encodeTime t = signedWord 8 (signed raw % (microsPerDay : Int)) ∧ raw.length = 8 ∧
      t.isValid = true := by
  obtain ⟨micros, hmicros, rfl⟩ := Option.map_eq_some_iff.mp h
  obtain ⟨hlength, rfl⟩ := signed?_eq_some.mp hmicros
  have hpos : (0 : Int) < microsPerDay := by decide
  have hleast := Int.emod_nonneg (signed raw) (Int.ne_of_gt hpos)
  have hmost := Int.emod_lt_of_pos (signed raw) hpos
  refine ⟨?_, hlength, Time.isValid_ofNanosOfDay ?_⟩
  · rw [encodeTime, Time.nanosOfDay_ofNanosOfDay, Nat.mul_div_cancel _ (by decide),
      Int.toNat_of_nonneg hleast]
  · simp only [microsPerDay, nanosPerMicro, DateTime.nanosPerDay, Time.nanosPerSecond] at *
    omega

/-! ## The text between them -/

theorem encodeString_date {d : Date} (h : decodeDate? raw = some d) :
    encodeString d.text (.scalar .date) = .ok raw := by
  obtain ⟨hlength, hvalid, rfl⟩ := decodeDate?_eq_some.mp h
  rw [encodeString, Date.read?_text hvalid, encodeRead, encodeDate_ofDays hlength]

theorem encodeString_time {t : Time} (h : decodeTime? raw = some t)
    (hday : 0 ≤ signed raw ∧ signed raw < (microsPerDay : Int)) :
    encodeString t.text (.scalar .time) = .ok raw := by
  obtain ⟨hencoded, hlength, hvalid⟩ := encodeTime_decoded h
  rw [encodeString, Time.read?_text hvalid, encodeRead, hencoded,
    Int.emod_eq_of_lt hday.1 hday.2, ← hlength, signedWord_signed]

theorem encodeString_timestamp {t : DateTime} (h : decodeDateTime? raw = some t) :
    encodeString t.text (.scalar .timestamp) = .ok raw := by
  obtain ⟨hlength, hvalid, rfl⟩ := decodeDateTime?_eq_some.mp h
  rw [encodeString, DateTime.read?_text hvalid (DateTime.isValid_time_ofNanos _), encodeRead,
    encodeDateTime_momentOf hlength]

theorem encodeString_timestamptz {t : DateTime} (h : decodeDateTime? raw = some t) :
    encodeString t.utcText (.scalar .timestamptz) =
      if 0 ≤ t.date.year ∧ t.date.year ≤ 9999 then .ok raw else .error .calendar := by
  obtain ⟨hlength, hvalid, rfl⟩ := decodeDateTime?_eq_some.mp h
  rw [encodeString]
  split
  · rename_i hyear
    rw [DateTime.readWithOffset?_utcText hvalid (DateTime.isValid_time_ofNanos _) hyear.1 hyear.2,
      encodeRead, encodeMoment_zero, encodeDateTime_momentOf hlength]
  · rename_i hyear
    rw [DateTime.readWithOffset?_signed hyear, encodeRead]

end Wire

def Scalar.isTemporal : Scalar → Bool
  | .date => true
  | .time => true
  | .timestamp => true
  | .timestamptz => true
  | _ => false

open Wire

/-- A fetched date or time is written back as it was, unless it is a moment with an offset in a year
before year zero or after the year 9999, which is no parameter of its own type. -/
theorem Scalar.temporal_writtenBack {s : Scalar} (hs : s.isTemporal = true) {raw : List UInt8}
    {text : String} (hday : s = .time → 0 ≤ signed raw ∧ signed raw < (microsPerDay : Int))
    (hread : decode? (.scalar s) raw = some (.text text)) :
    (Value.text text).encode (.scalar s) =
      if s = .timestamptz ∧ ¬ (0 ≤ (momentOf raw).date.year ∧ (momentOf raw).date.year ≤ 9999) then
        .error .calendar
      else .ok (some raw) := by
  cases s with
  | date =>
    obtain ⟨d, hd, htext⟩ := Option.map_eq_some_iff.mp hread
    obtain rfl : d.text = text := Value.text.inj htext
    simp [Value.encode, encodeString_date hd, Except.map]
  | time =>
    obtain ⟨t, ht, htext⟩ := Option.map_eq_some_iff.mp hread
    obtain rfl : t.text = text := Value.text.inj htext
    simp [Value.encode, encodeString_time ht (hday rfl), Except.map]
  | timestamp =>
    obtain ⟨t, ht, htext⟩ := Option.map_eq_some_iff.mp hread
    obtain rfl : t.text = text := Value.text.inj htext
    simp [Value.encode, encodeString_timestamp ht, Except.map]
  | timestamptz =>
    obtain ⟨t, ht, htext⟩ := Option.map_eq_some_iff.mp hread
    obtain rfl : t.utcText = text := Value.text.inj htext
    obtain ⟨-, -, hmoment⟩ := decodeDateTime?_eq_some.mp ht
    rw [Value.encode, encodeString_timestamptz ht, hmoment]
    by_cases hyear : 0 ≤ (momentOf raw).date.year ∧ (momentOf raw).date.year ≤ 9999
    · rw [if_pos hyear, if_neg fun h => h.2 hyear]
      rfl
    · rw [if_neg hyear, if_pos ⟨rfl, hyear⟩]
      rfl
  | _ => cases hs

def farMoment : List UInt8 := [0x03, 0x80, 0xe7, 0x0b, 0x91, 0x3b, 0x80, 0x00]

/-- It is fetched with an offset and cannot be written back, but without an offset it can. -/
theorem farMoment_refused :
    decode? (.scalar .timestamptz) farMoment = some (.text "+10000-01-01T00:00:00+00:00") ∧
      (Value.text "+10000-01-01T00:00:00+00:00").encode (.scalar .timestamptz) =
        .error .calendar ∧
      decode? (.scalar .timestamp) farMoment = some (.text "+10000-01-01 00:00:00") ∧
      (Value.text "+10000-01-01 00:00:00").encode (.scalar .timestamp) = .ok (some farMoment) := by
  have hdecoded : decodeDateTime? farMoment = some ⟨⟨10000, 1, 1⟩, ⟨0, 0, 0, 0⟩⟩ := by
    decide +kernel
  have hyear : (momentOf farMoment).date.year = 10000 := by decide +kernel
  have hzoned : decode? (.scalar .timestamptz) farMoment =
      some (.text "+10000-01-01T00:00:00+00:00") := by
    rw [decode?, decodeScalar?, hdecoded]
    rfl
  have hlocal : decode? (.scalar .timestamp) farMoment = some (.text "+10000-01-01 00:00:00") := by
    rw [decode?, decodeScalar?, hdecoded]
    rfl
  refine ⟨hzoned, ?_, hlocal, ?_⟩
  · rw [Scalar.temporal_writtenBack rfl (by simp) hzoned, hyear]
    simp
  · rw [Scalar.temporal_writtenBack rfl (by simp) hlocal]
    simp

end QueryLoom
