import QueryLoom.Postgres.Client
import QueryLoom.Proofs.Calendar.Reader
import QueryLoom.Proofs.Wire.Bytes
import QueryLoom.Wire.Decode

/-!
# Intervals as texts

An interval is written as its months, its days and a time with one sign for the whole of it. From
this text the three numbers can be read back, however large they are: the hours have as many digits
as they need, minutes and seconds are below sixty, and the fraction has a digit for each place down
to the microsecond. So a cell of sixteen bytes loses nothing by becoming a text, and every other
number of bytes is no interval.
-/

set_option autoImplicit false

namespace QueryLoom

namespace Text

def signChars (n : Int) : List Char := if n < 0 then ['-'] else []

theorem toList_integer (n : Int) :
    (integer n).toList = signChars n ++ Nat.toDigits 10 n.natAbs := by
  unfold integer signChars
  split <;> simp [natural]

end Text

open Text (Stops paddedDigits signChars)

/-! ## A grammar of intervals -/

namespace Calendar.Scan

def literal : List Char → Scan Unit
  | [] => return
  | c :: cs => do
    mark c
    literal cs

def minus : Scan Bool := do
  match ← get with
  | '-' :: cs =>
    set cs
    return true
  | _ => return false

def withSign (negative : Bool) (n : Nat) : Int := if negative then -(n : Int) else n

def integer : Scan Int := do
  let negative ← minus
  return withSign negative (← natural 1 none)

def sixtieth : Scan Nat := do
  let n ← pair
  if n < 60 then return n else failure

def clock : Scan Nat := do
  let hours ← natural 1 none
  mark ':'
  let minutes ← sixtieth
  mark ':'
  let seconds ← sixtieth
  mark '.'
  let fraction ← natural 6 (some 6)
  return 1000000 * (60 * (60 * hours + minutes) + seconds) + fraction

def interval : Scan Wire.Interval := do
  let months ← integer
  literal " mons ".toList
  let days ← integer
  literal " days ".toList
  let negative ← minus
  return ⟨withSign negative (← clock), days, months⟩

end Calendar.Scan

def Wire.Interval.read? (s : String) : Option Wire.Interval := Calendar.Scan.interval.complete? s

/-! ## Fields -/

namespace Calendar.Scan

variable {rest : List Char}

theorem literal_run (cs rest : List Char) : (literal cs).run (cs ++ rest) = some ((), rest) := by
  induction cs with
  | nil => rfl
  | cons c cs ih =>
    rw [literal, List.cons_append, StateT.run_bind, mark_run, Option.bind_eq_bind,
      Option.bind_some, ih]

theorem minus_run (n : Int) (hrest : rest.head? ≠ some '-') :
    minus.run (signChars n ++ rest) = some (decide (n < 0), rest) := by
  unfold signChars
  by_cases hneg : n < 0
  · simp [minus, hneg]
  · cases rest with
    | nil => simp [minus, hneg]
    | cons c rest =>
      have hc : c ≠ '-' := by simpa using hrest
      simp [minus, hneg, hc]

theorem withSign_natAbs (n : Int) : withSign (decide (n < 0)) n.natAbs = n := by
  unfold withSign
  by_cases hneg : n < 0
  · rw [decide_eq_true hneg, if_pos rfl]
    omega
  · rw [decide_eq_false hneg, if_neg Bool.false_ne_true]
    omega

/-- A digit is no sign. -/
theorem head?_ne_minus {ds : List Char} (hds : ∀ c ∈ ds, c.isDigit = true) (hne : ds ≠ [])
    (rest : List Char) : (ds ++ rest).head? ≠ some '-' := by
  obtain ⟨c, cs, rfl⟩ := List.exists_cons_of_ne_nil hne
  intro hc
  obtain rfl : c = '-' := by simpa using hc
  cases hds '-' (by simp)

theorem integer_run (n : Int) (hstop : Stops Char.isDigit rest) :
    integer.run ((Text.integer n).toList ++ rest) = some (n, rest) := by
  have hdigits : ∀ c ∈ Nat.toDigits 10 n.natAbs, c.isDigit = true := fun c hc =>
    Nat.isDigit_of_mem_toDigits (by decide) (by decide) hc
  have hlength : 1 ≤ (Nat.toDigits 10 n.natAbs).length := Nat.length_toDigits_pos
  have hnatural := natural_run 1 none hdigits hlength (Or.inr ⟨rfl, hstop⟩)
  rw [Nat.ofDigitChars_ten_toDigits] at hnatural
  have hsign := minus_run n (head?_ne_minus hdigits Nat.toDigits_ne_nil rest)
  rw [Text.toList_integer, List.append_assoc]
  simp [integer, hsign, hnatural, withSign_natAbs]

theorem sixtieth_run {n : Nat} (hn : n < 60) (rest : List Char) :
    sixtieth.run (paddedDigits 2 n ++ rest) = some (n, rest) := by
  simp [sixtieth, pair_run (show n < 100 by omega), hn]

end Calendar.Scan

/-! ## Times -/

namespace Wire.Interval

def clockChars (n : Nat) : List Char :=
  paddedDigits 2 (n / 1000000 / 3600) ++ ':' :: (paddedDigits 2 (n / 1000000 / 60 % 60) ++
    ':' :: (paddedDigits 2 (n / 1000000 % 60) ++ '.' :: paddedDigits 6 (n % 1000000)))

theorem clockChars_head? (n : Nat) (rest : List Char) :
    (clockChars n ++ rest).head? ≠ some '-' := by
  obtain ⟨c, cs, hcs, -⟩ := Text.paddedDigits_cons (show 0 < 2 by decide) (n / 1000000 / 3600)
  have hne : paddedDigits 2 (n / 1000000 / 3600) ≠ [] := by simp [hcs]
  rw [clockChars, List.append_assoc]
  exact Calendar.Scan.head?_ne_minus (Text.paddedDigits_isDigit 2 _) hne _

theorem toList_text (i : Interval) : i.text.toList =
    (Text.integer i.months).toList ++ (" mons ".toList ++ ((Text.integer i.days).toList ++
      (" days ".toList ++ (signChars i.micros ++ clockChars i.micros.natAbs)))) := by
  have hsign : (if i.micros < 0 then "-" else "").toList = signChars i.micros := by
    unfold signChars
    split <;> rfl
  simp [text, clockChars, hsign]

def IsClock (cs : List Char) : Prop :=
  ∃ hours minutes seconds fraction : List Char,
    cs = hours ++ ':' :: (minutes ++ ':' :: (seconds ++ '.' :: fraction)) ∧
      (∀ c ∈ hours ++ minutes ++ seconds ++ fraction, c.isDigit = true) ∧
      2 ≤ hours.length ∧
      minutes.length = 2 ∧ Nat.ofDigitChars 10 minutes 0 < 60 ∧
      seconds.length = 2 ∧ Nat.ofDigitChars 10 seconds 0 < 60 ∧
      fraction.length = 6

theorem clockChars_isClock (n : Nat) : IsClock (clockChars n) := by
  have hminutes : n / 1000000 / 60 % 60 < 60 := Nat.mod_lt _ (by decide)
  have hseconds : n / 1000000 % 60 < 60 := Nat.mod_lt _ (by decide)
  have hsixty : 60 < Nat.pow 10 2 := by decide
  refine ⟨_, _, _, _, rfl, ?_, Text.width_le_length_paddedDigits 2 _,
    Text.length_paddedDigits (by decide) (Nat.lt_trans hminutes hsixty), ?_,
    Text.length_paddedDigits (by decide) (Nat.lt_trans hseconds hsixty), ?_,
    Text.length_paddedDigits (by decide) (Nat.mod_lt n (by decide))⟩
  · simp only [List.forall_mem_append]
    exact ⟨⟨⟨Text.paddedDigits_isDigit 2 _, Text.paddedDigits_isDigit 2 _⟩,
      Text.paddedDigits_isDigit 2 _⟩, Text.paddedDigits_isDigit 6 _⟩
  · rwa [Text.value_paddedDigits]
  · rwa [Text.value_paddedDigits]

end Wire.Interval

namespace Calendar.Scan

open Wire.Interval

/-- The fields of a time make up its microseconds again. -/
theorem clock_run (n : Nat) (rest : List Char) :
    clock.run (clockChars n ++ rest) = some (n, rest) := by
  have hstop : ∀ more, Stops Char.isDigit (':' :: more) := Text.stops_cons (by decide)
  have hhours := fun more =>
    long_run 2 (n / 1000000 / 3600) (show 1 ≤ 2 by decide) (hstop more)
  have hminutes := sixtieth_run (show n / 1000000 / 60 % 60 < 60 from Nat.mod_lt _ (by decide))
  have hseconds := sixtieth_run (show n / 1000000 % 60 < 60 from Nat.mod_lt _ (by decide))
  have hfraction := padded_run 6 (by decide) (Nat.le_refl 6)
    (show n % 1000000 < Nat.pow 10 6 from Nat.mod_lt n (by decide)) rest
  have hsum : 1000000 * (60 * (60 * (n / 1000000 / 3600) + n / 1000000 / 60 % 60) +
      n / 1000000 % 60) + n % 1000000 = n := by omega
  simp only [clockChars, List.append_assoc, List.cons_append, clock, StateT.run_bind, hhours,
    hminutes, hseconds, hfraction, mark_run, Option.bind_eq_bind, Option.bind_some,
    StateT.run_pure, hsum]
  rfl

theorem interval_run (i : Wire.Interval) (rest : List Char) :
    interval.run (i.text.toList ++ rest) = some (i, rest) := by
  have hmons : ∀ cs, Stops Char.isDigit (" mons ".toList ++ cs) := fun cs =>
    Text.stops_cons (by decide) _
  have hdays : ∀ cs, Stops Char.isDigit (" days ".toList ++ cs) := fun cs =>
    Text.stops_cons (by decide) _
  have hmonths := fun cs => integer_run i.months (hmons cs)
  have hdayCount := fun cs => integer_run i.days (hdays cs)
  have hsign := minus_run i.micros (clockChars_head? i.micros.natAbs rest)
  rw [toList_text]
  simp only [List.append_assoc, interval, StateT.run_bind, hmonths, hdayCount, hsign, literal_run,
    clock_run, Option.bind_eq_bind, Option.bind_some, withSign_natAbs]
  rfl

end Calendar.Scan

namespace Wire

/-! ## Cells -/

theorem Interval.read?_text (i : Interval) : Interval.read? i.text = some i :=
  Calendar.Scan.complete?_eq (by simpa using Calendar.Scan.interval_run i [])

def intervalBytes (micros : Int64) (days months : Int32) : List UInt8 :=
  signedWord 8 micros.toInt ++ (signedWord 4 days.toInt ++ signedWord 4 months.toInt)

theorem signed_int64 (n : Int64) : signed (signedWord 8 n.toInt) = n.toInt := by
  have hlow := n.le_toInt
  have hhigh := n.toInt_lt
  have hpow : Nat.pow 256 8 = 0x10000000000000000 := rfl
  exact signed_signedWord (by omega) (by omega)

theorem signed_int32 (n : Int32) : signed (signedWord 4 n.toInt) = n.toInt := by
  have hlow := n.le_toInt
  have hhigh := n.toInt_lt
  have hpow : Nat.pow 256 4 = 0x100000000 := rfl
  exact signed_signedWord (by omega) (by omega)

theorem ofBytes?_intervalBytes (micros : Int64) (days months : Int32) :
    Interval.ofBytes? (intervalBytes micros days months) =
      some ⟨micros.toInt, days.toInt, months.toInt⟩ := by
  have height : (signedWord 8 micros.toInt).length = 8 := length_word 8 _
  have hfour : ∀ n : Int32, (signedWord 4 n.toInt).length = 4 := fun _ => length_word 4 _
  have hlength : (intervalBytes micros days months).length = 16 := by
    simp [intervalBytes, height, hfour]
  have hmicros : (signedWord 8 micros.toInt).drop 12 = [] := List.drop_eq_nil_of_le (by omega)
  rw [Interval.ofBytes?, exactly?, if_pos hlength, Option.map_some]
  simp [intervalBytes, height, hfour, hmicros, signed_int64, signed_int32, List.drop_append]

/-- Sixteen bytes are fetched as a text of the form that intervals have, and reading it gives the
microseconds, days and months of the cell. Any other number of bytes is an error of its column. -/
theorem interval_reread (micros : Int64) (days months : Int32) :
    (∃ text clock,
      decode? (.scalar .interval) (intervalBytes micros days months) = some (.text text) ∧
        text.toList = (Text.integer months.toInt).toList ++ (" mons ".toList ++
          ((Text.integer days.toInt).toList ++ (" days ".toList ++
            (signChars micros.toInt ++ clock)))) ∧
        Interval.IsClock clock ∧
        Interval.read? text = some ⟨micros.toInt, days.toInt, months.toInt⟩) ∧
      ∀ raw : List UInt8, raw.length ≠ 16 →
        decode? (.scalar .interval) raw = none ∧
          ∀ column, Postgres.readCell (column, .scalar .interval) (some raw) =
            .error (.decode column .malformed) := by
  let i : Interval := ⟨micros.toInt, days.toInt, months.toInt⟩
  refine ⟨⟨i.text, Interval.clockChars i.micros.natAbs, ?_, i.toList_text,
    Interval.clockChars_isClock _, i.read?_text⟩, fun raw hlength => ?_⟩
  · rw [decode?, decodeScalar?, ofBytes?_intervalBytes, Option.map_some]
  · have hnone : decode? (.scalar .interval) raw = none := by
      rw [decode?, decodeScalar?, Interval.ofBytes?, exactly?, if_neg hlength]
      rfl
    refine ⟨hnone, fun column => ?_⟩
    rw [Postgres.readCell, decodeCell?, hnone]

/-- The least of all microseconds has no magnitude among them. -/
theorem leastInterval_reread :
    decode? (.scalar .interval)
        [0x80, 0, 0, 0, 0, 0, 0, 0, 0x80, 0, 0, 0, 0xff, 0xff, 0xff, 0xff] =
      some (.text "-1 mons -2147483648 days -2562047788:00:54.775808") ∧
    Interval.read? "-1 mons -2147483648 days -2562047788:00:54.775808" =
      some ⟨-9223372036854775808, -2147483648, -1⟩ ∧
    Postgres.readCell ("span", .scalar .interval) (some [0, 0, 0, 1]) =
      .error (.decode "span" .malformed) := by
  have hcell : intervalBytes Int64.minValue Int32.minValue (-1) =
      [0x80, 0, 0, 0, 0, 0, 0, 0, 0x80, 0, 0, 0, 0xff, 0xff, 0xff, 0xff] := by decide
  have hread : decode? (.scalar .interval)
      [0x80, 0, 0, 0, 0, 0, 0, 0, 0x80, 0, 0, 0, 0xff, 0xff, 0xff, 0xff] =
        some (.text "-1 mons -2147483648 days -2562047788:00:54.775808") := by rfl
  obtain ⟨⟨text, _, htext, -, -, hback⟩, hother⟩ :=
    interval_reread Int64.minValue Int32.minValue (-1)
  rw [hcell, hread] at htext
  obtain rfl : _ = text := Value.text.inj (Option.some.inj htext)
  exact ⟨hread, hback, (hother [0, 0, 0, 1] (by decide)).2 "span"⟩

end Wire

end QueryLoom
