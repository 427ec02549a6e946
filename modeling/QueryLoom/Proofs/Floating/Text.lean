import QueryLoom.Floating.Numeral
import QueryLoom.Floating.Text
import QueryLoom.Proofs.Floating.Shortest
import QueryLoom.Proofs.Text.Span

/-!
# The text of a double tells the double

The text of a finite double is a sign and a decimal numeral. Read as a number, the numeral has the
value of the shortest decimal, which is nearest to one double only; so doubles of the same text
have the same bits.
-/

set_option autoImplicit false

namespace QueryLoom.Floating

def Numeral.value : Numeral → ℚ
  | .decimal digits exponent => Nat.ofDigitChars 10 digits 0 * 10 ^ exponent
  | _ => 0

/-! ## Reading numerals -/

theorem digits_isDigit (n : ℕ) : ∀ c ∈ Nat.toDigits 10 n, c.isDigit = true := fun _ hc =>
  Nat.isDigit_of_mem_toDigits (by decide) (by decide) hc

theorem digitChars_ne_nil (d : Scientific) : d.digitChars ≠ [] := Nat.toDigits_ne_nil

/-- Digits, a point, digits, and perhaps an exponent. -/
theorem readDecimal?_point (whole fraction rest : List Char) {e : ℤ}
    (hw : ∀ c ∈ whole, c.isDigit = true) (hne : whole ≠ [])
    (hf : ∀ c ∈ fraction, c.isDigit = true) (hr : Text.Stops Char.isDigit rest)
    (he : readExponent? rest = some e) :
    readDecimal? (whole ++ '.' :: (fraction ++ rest)) =
      some (.decimal (whole ++ fraction) (e - fraction.length)) := by
  have hpoint : Text.Stops Char.isDigit ('.' :: (fraction ++ rest)) :=
    Text.stops_cons (by decide) _
  unfold readDecimal?
  rw [Text.takeWhile_append hw hpoint, Text.dropWhile_append hw hpoint]
  simp only [Text.takeWhile_append hf hr, Text.dropWhile_append hf hr, he]
  simp [hne]

/-- Digits and perhaps an exponent. -/
theorem readDecimal?_whole {whole rest : List Char} {e : ℤ}
    (hw : ∀ c ∈ whole, c.isDigit = true) (hne : whole ≠ [])
    (hr : Text.Stops (fun c => c.isDigit || c == '.') rest) (he : readExponent? rest = some e) :
    readDecimal? (whole ++ rest) = some (.decimal whole e) := by
  have hstop : Text.Stops Char.isDigit rest := fun c hc => by
    have := hr c hc
    simp only [Bool.or_eq_false_iff] at this
    exact this.1
  have hpoint : ∀ r, rest ≠ '.' :: r := by
    rintro r rfl
    simpa using hr '.' rfl
  unfold readDecimal?
  rw [Text.takeWhile_append hw hstop, Text.dropWhile_append hw hstop]
  dsimp only
  split
  · exact absurd rfl (hpoint _)
  · simp [he, hne]

theorem readExponent?_digits (sign : List Char) (n : ℕ) (negative : Bool)
    (h : takeSign (sign ++ Nat.toDigits 10 n) = (negative, Nat.toDigits 10 n)) :
    readExponent? ('e' :: (sign ++ Nat.toDigits 10 n)) =
      some (if negative then -(n : ℤ) else n) := by
  have hall : (Nat.toDigits 10 n).all Char.isDigit = true := by
    rw [List.all_eq_true]
    exact digits_isDigit n
  simp only [readExponent?, h, hall, Nat.ofDigitChars_ten_toDigits]
  simp [Nat.toDigits_ne_nil]

theorem readExponent?_exponent (e : ℤ) : readExponent? (json.exponent e) = some e := by
  unfold Notation.exponent Text.integer Text.natural
  rcases lt_trichotomy e 0 with he | rfl | he
  · have hplus : (json.exponentPlus && decide (0 < e)) = false := by
      simp [he.le]
    rw [hplus, if_pos he]
    simpa [abs_of_neg he] using readExponent?_digits ['-'] e.natAbs true rfl
  · decide
  · have hplus : (json.exponentPlus && decide (0 < e)) = true := by
      simp [json, he]
    rw [hplus, if_neg (not_lt.mpr he.le)]
    simpa [abs_of_pos he] using readExponent?_digits ['+'] e.natAbs false rfl

theorem exponent_stops (e : ℤ) :
    Text.Stops (fun c => c.isDigit || c == '.') (json.exponent e) :=
  Text.stops_cons (by decide) _

/-! ## The notation of JSON -/

theorem ofDigitChars_append (cs ds : List Char) :
    Nat.ofDigitChars 10 (cs ++ ds) 0 =
      10 ^ ds.length * Nat.ofDigitChars 10 cs 0 + Nat.ofDigitChars 10 ds 0 := by
  rw [Nat.ofDigitChars_append, Nat.ofDigitChars_eq_ofDigitChars_zero]

theorem digitChars_value (d : Scientific) : Nat.ofDigitChars 10 d.digitChars 0 = d.digits :=
  Nat.ofDigitChars_ten_toDigits

/-- The digits of a whole number, with zeros after the last and after the point. -/
theorem read_whole {d : Scientific} (he : 0 ≤ d.exponent) :
    ∃ n, readDecimal? (d.positional ++ ['.', '0']) = some n ∧ n.value = d.value := by
  obtain ⟨k, hk⟩ := Int.eq_ofNat_of_zero_le he
  have hdigits : ∀ c ∈ d.digitChars ++ List.replicate k '0', c.isDigit = true := by
    intro c hc
    rcases List.mem_append.mp hc with hc | hc
    · exact digits_isDigit _ c hc
    · rw [List.eq_of_mem_replicate hc]
      decide
  have hread := readDecimal?_point _ ['0'] [] (e := 0) hdigits
    (by simp [digitChars_ne_nil]) (by decide) (Text.stops_nil _) rfl
  refine ⟨_, by rw [Scientific.positional, if_pos he, hk]; exact hread, ?_⟩
  have hzero : Nat.ofDigitChars 10 ['0'] 0 = 0 := by decide
  simp only [Numeral.value, Scientific.value, ofDigitChars_append, digitChars_value,
    Nat.ofDigitChars_replicate_zero, hzero, hk, List.length_replicate, List.length_singleton]
  push_cast
  rw [zpow_natCast, zpow_neg_one]
  ring

/-- The digits with a point among them. -/
theorem read_fraction {d : Scientific} (he : d.exponent < 0) :
    ∃ n, readDecimal? d.positional = some n ∧ n.value = d.value := by
  obtain ⟨k, hk⟩ := Int.eq_ofNat_of_zero_le (show 0 ≤ -d.exponent by omega)
  have hplaces : (-d.exponent).toNat = k := by omega
  have hexponent : d.exponent = -(k : ℤ) := by omega
  have hdigits : ∀ c ∈ d.digitChars, c.isDigit = true := digits_isDigit _
  unfold Scientific.positional
  rw [if_neg (not_le.mpr he), hplaces]
  by_cases hlen : k < d.digitChars.length
  · have hread := readDecimal?_point (d.digitChars.take (d.digitChars.length - k))
      (d.digitChars.drop (d.digitChars.length - k)) [] (e := 0)
      (fun c hc => hdigits c (List.mem_of_mem_take hc)) (by
        rw [Ne, List.take_eq_nil_iff]
        simp [digitChars_ne_nil]
        omega)
      (fun c hc => hdigits c (List.mem_of_mem_drop hc)) (Text.stops_nil _) rfl
    rw [List.append_nil] at hread
    refine ⟨_, by simpa only [hlen, if_true] using hread, ?_⟩
    rw [List.take_append_drop, List.length_drop]
    simp only [Numeral.value, Scientific.value, digitChars_value, hexponent]
    congr 2
    omega
  · have hzeros : ∀ c ∈ List.replicate (k - d.digitChars.length) '0' ++ d.digitChars,
        c.isDigit = true := by
      intro c hc
      rcases List.mem_append.mp hc with hc | hc
      · rw [List.eq_of_mem_replicate hc]
        decide
      · exact hdigits c hc
    have hread := readDecimal?_point ['0']
      (List.replicate (k - d.digitChars.length) '0' ++ d.digitChars) [] (e := 0) (by decide)
      (by decide) hzeros (Text.stops_nil _) rfl
    rw [List.append_nil] at hread
    refine ⟨_, by rw [if_neg hlen]; exact hread, ?_⟩
    have hzero : Nat.ofDigitChars 10 ['0'] 0 = 0 := by decide
    simp only [Numeral.value, Scientific.value, ofDigitChars_append, digitChars_value, hexponent,
      Nat.ofDigitChars_replicate_zero, hzero, List.length_append, List.length_replicate]
    rw [Nat.sub_add_cancel (by omega)]
    simp

/-- One digit, the others behind a point, and an exponent. -/
theorem read_scientific (d : Scientific) :
    ∃ n, readDecimal? (d.significand ++ json.exponent d.leadingPlace) = some n ∧
      n.value = d.value := by
  have hdigits : ∀ c ∈ d.digitChars, c.isDigit = true := digits_isDigit _
  have hexponent := readExponent?_exponent d.leadingPlace
  obtain ⟨c, cs, hcs⟩ := List.exists_cons_of_ne_nil (digitChars_ne_nil d)
  have hvalue := digitChars_value d
  have hplace : d.leadingPlace - cs.length = d.exponent := by
    rw [Scientific.leadingPlace, hcs, List.length_cons]
    push_cast
    ring
  rw [hcs] at hdigits hvalue
  unfold Scientific.significand
  rw [hcs]
  cases cs with
  | nil =>
    refine ⟨_, readDecimal?_whole hdigits (by simp) (exponent_stops _) hexponent, ?_⟩
    simp only [List.length_nil, Nat.cast_zero, sub_zero] at hplace
    rw [Numeral.value, Scientific.value, hvalue, hplace]
  | cons c' cs =>
    have hread := readDecimal?_point [c] (c' :: cs) _
      (fun d hd => hdigits d (by simp at hd; simp [hd])) (by simp)
      (fun d hd => hdigits d (List.mem_cons_of_mem _ hd))
      (Text.stops_cons (by decide) _) hexponent
    refine ⟨_, hread, ?_⟩
    rw [hplace, Numeral.value, Scientific.value, List.singleton_append, hvalue]

theorem read_decimal (d : Scientific) :
    ∃ n, readDecimal? (json.decimal d) = some n ∧ n.value = d.value := by
  unfold Notation.decimal
  by_cases hplace : json.isPositional d.leadingPlace = true
  · rw [if_pos hplace]
    by_cases he : 0 ≤ d.exponent
    · simpa [json, he] using read_whole he
    · simpa [json, he] using read_fraction (not_le.mp he)
  · rw [if_neg hplace]
    exact read_scientific d

/-- The numeral of a double says a number that is nearest to it. -/
theorem read_magnitude {bits : ℕ} (h : bits < double.infinityBits) :
    ∃ n, readDecimal? (json.magnitude (double.magnitude bits)) = some n ∧
      Covers (significandOf bits) (exponentOf bits) n.value := by
  have hmax : double.infinityBits = 2047 * 2 ^ 52 := by decide
  have hmin := minExponent_double
  rw [magnitude_double h]
  cases hm : significandOf bits with
  | zero =>
    refine ⟨.decimal ['0', '0'] (-1), rfl, ?_⟩
    have hpow : (0 : ℚ) < 2 ^ exponentOf bits := by positivity
    have hgap : 0 < gap 0 (exponentOf bits) := by
      unfold gap
      split <;> norm_num
    have hvalue : (Numeral.decimal ['0', '0'] (-1)).value = 0 := by
      rw [Numeral.value, show Nat.ofDigitChars 10 ['0', '0'] 0 = 0 by decide]
      simp
    rw [hvalue]
    refine ⟨?_, ?_, fun hodd => absurd hodd (by decide)⟩
    · unfold lowEnd
      push_cast
      nlinarith
    · unfold highEnd
      positivity
  | succ m =>
    obtain ⟨n, hn, hvalue⟩ := read_decimal (shortest (m + 1) (exponentOf bits))
    refine ⟨n, hn, hvalue ▸ shortest_covers (Nat.succ_pos m) ?_ ?_ ?_⟩
    · rw [← hm]
      unfold significandOf
      split <;> omega
    · unfold exponentOf
      split <;> omega
    · unfold exponentOf
      split <;> omega

/-! ## Signs -/

theorem readDecimal?_sign {c : Char} (h : c = '-' ∨ c = '+') (cs : List Char) :
    readDecimal? (c :: cs) = none := by
  rcases h with rfl | rfl <;> simp [readDecimal?]

theorem takeSign_unsigned {cs : List Char} {n : Numeral} (h : readDecimal? cs = some n) :
    takeSign cs = (false, cs) := by
  unfold takeSign
  split
  · rw [readDecimal?_sign (Or.inl rfl)] at h
    cases h
  · rw [readDecimal?_sign (Or.inr rfl)] at h
    cases h
  · rfl

theorem text_eq {x : Double} (h : x.isFinite = true) :
    (json.text x).toList =
      (if x.isNegative then ['-'] else []) ++ json.magnitude x.magnitude := by
  have hnan : x.isNaN = false := by
    rw [Double.isNaN, Double.magnitude, magnitude_double (of_decide_eq_true h)]
    rfl
  simp [Notation.text, hnan]

theorem takeSign_text {x : Double} (h : x.isFinite = true) :
    takeSign (json.text x).toList = (x.isNegative, json.magnitude x.magnitude) := by
  obtain ⟨n, hn, -⟩ := read_magnitude (of_decide_eq_true h)
  rw [text_eq h]
  cases x.isNegative with
  | true => rfl
  | false => exact takeSign_unsigned hn

/-! ## The characters of a numeral -/

def isNumeric (c : Char) : Bool := c.isDigit || ['.', 'e', '+', '-'].contains c

def isFractional (c : Char) : Bool := c == '.' || c == 'e'

theorem isNumeric_of_isDigit {c : Char} (h : c.isDigit = true) : isNumeric c = true := by
  simp [isNumeric, h]

theorem digitChars_numeric (d : Scientific) : ∀ c ∈ d.digitChars, isNumeric c = true :=
  fun c hc => isNumeric_of_isDigit (digits_isDigit _ c hc)

theorem integer_numeric (n : ℤ) :
    ∀ c ∈ (Text.integer n).toList, isNumeric c = true ∧ isFractional c = false := by
  have hdigit : ∀ c : Char, c.isDigit = true → isFractional c = false := by
    intro c hc
    simp only [isFractional, Bool.or_eq_false_iff, beq_eq_false_iff_ne]
    constructor <;> rintro rfl <;> exact absurd hc (by decide)
  have hnatural : ∀ c ∈ (Text.natural n.natAbs).toList,
      isNumeric c = true ∧ isFractional c = false := by
    intro c hc
    rw [Text.natural, String.toList_ofList] at hc
    have hd := digits_isDigit _ c hc
    exact ⟨isNumeric_of_isDigit hd, hdigit c hd⟩
  unfold Text.integer
  split
  · intro c hc
    rw [String.toList_append, List.mem_append] at hc
    rcases hc with hc | hc
    · obtain rfl : c = '-' := by simpa using hc
      decide
    · exact hnatural c hc
  · exact hnatural

theorem replicate_numeric (k : ℕ) : ∀ c ∈ List.replicate k '0', isNumeric c = true := by
  intro c hc
  rw [List.eq_of_mem_replicate hc]
  decide

theorem positional_numeric (d : Scientific) : ∀ c ∈ d.positional, isNumeric c = true := by
  have hdigits := digitChars_numeric d
  simp only [Scientific.positional]
  split
  · exact List.forall_mem_append.mpr ⟨hdigits, replicate_numeric _⟩
  · split
    · exact List.forall_mem_append.mpr ⟨fun c hc => hdigits c (List.mem_of_mem_take hc),
        List.forall_mem_cons.mpr ⟨by decide, fun c hc => hdigits c (List.mem_of_mem_drop hc)⟩⟩
    · exact List.forall_mem_append.mpr
        ⟨List.forall_mem_append.mpr ⟨by decide, replicate_numeric _⟩, hdigits⟩

theorem significand_numeric (d : Scientific) : ∀ c ∈ d.significand, isNumeric c = true := by
  have hdigits := digitChars_numeric d
  unfold Scientific.significand
  split
  · simp
  · rename_i h
    rwa [h] at hdigits
  · rename_i c cs _ h
    rw [h, List.forall_mem_cons] at hdigits
    exact List.forall_mem_cons.mpr
      ⟨hdigits.1, List.forall_mem_cons.mpr ⟨by decide, hdigits.2⟩⟩

theorem exponent_numeric (e : ℤ) : ∀ c ∈ json.exponent e, isNumeric c = true := by
  unfold Notation.exponent
  refine List.forall_mem_cons.mpr ⟨by decide, List.forall_mem_append.mpr ⟨?_, ?_⟩⟩
  · split <;> decide
  · exact fun c hc => (integer_numeric e c hc).1

/-- A double is written with characters of numbers, a point or an exponent among them. -/
theorem decimal_numeric (d : Scientific) :
    (∀ c ∈ json.decimal d, isNumeric c = true) ∧ ∃ c ∈ json.decimal d, isFractional c = true := by
  unfold Notation.decimal
  split
  · refine ⟨List.forall_mem_append.mpr ⟨positional_numeric d, by split <;> decide⟩, '.', ?_,
      by decide⟩
    by_cases he : 0 ≤ d.exponent
    · simp [json, he]
    · rw [List.mem_append]
      left
      simp only [Scientific.positional, he, if_false]
      split <;> simp
  · exact ⟨List.forall_mem_append.mpr ⟨significand_numeric d, exponent_numeric _⟩, 'e',
      by simp [Notation.exponent], by decide⟩

theorem text_numeric {x : Double} (h : x.isFinite = true) :
    (∀ c ∈ (json.text x).toList, isNumeric c = true) ∧
      ∃ c ∈ (json.text x).toList, isFractional c = true := by
  have hmagnitude : (∀ c ∈ json.magnitude x.magnitude, isNumeric c = true) ∧
      ∃ c ∈ json.magnitude x.magnitude, isFractional c = true := by
    rw [Double.magnitude, magnitude_double (of_decide_eq_true h)]
    cases significandOf x.magnitudeBits with
    | zero =>
      have hzero : ∀ q, json.magnitude (.finite 0 q) = ['0', '.', '0'] := fun _ => rfl
      rw [hzero]
      exact ⟨by decide, '.', by decide, by decide⟩
    | succ m => exact decimal_numeric _
  rw [text_eq h]
  refine ⟨List.forall_mem_append.mpr ⟨by split <;> decide, hmagnitude.1⟩, ?_⟩
  obtain ⟨c, hc, hf⟩ := hmagnitude.2
  exact ⟨c, List.mem_append_right _ hc, hf⟩

/-- Without exponents, a double is characters of numbers or a word. -/
theorem plain_text_chars (x : Double) :
    ∀ c ∈ (plain.text x).toList, isNumeric c = true ∨ c.isAlpha = true := by
  have hmagnitude : ∀ c ∈ plain.magnitude x.magnitude, isNumeric c = true ∨ c.isAlpha = true := by
    unfold Notation.magnitude
    split
    · decide
    · decide
    · decide
    · intro c hc
      left
      apply positional_numeric (shortest _ _) c
      simpa [Notation.decimal, Notation.isPositional, plain] using hc
  rw [Notation.text, String.toList_ofList]
  exact List.forall_mem_append.mpr ⟨by split <;> decide, hmagnitude⟩

end QueryLoom.Floating

namespace QueryLoom.Double

open Floating

theorem bits_eq {x y : Double} (hs : x.isNegative = y.isNegative)
    (hm : x.magnitudeBits = y.magnitudeBits) : x = y := by
  obtain ⟨x⟩ := x
  obtain ⟨y⟩ := y
  have hsign : double.signBit = 2 ^ 63 := by decide
  have hx : x.toNat < 2 ^ 64 := x.toNat_lt
  have hy : y.toNat < 2 ^ 64 := y.toNat_lt
  simp only [isNegative, magnitudeBits, hsign, decide_eq_decide] at hs hm
  congr 1
  refine UInt64.toNat_inj.mp ?_
  omega

/-- Finite doubles with the same text are the same. -/
theorem text_injective {x y : Double} (hx : x.isFinite = true) (hy : y.isFinite = true)
    (h : json.text x = json.text y) : x = y := by
  have hsign := takeSign_text hx
  rw [h, takeSign_text hy] at hsign
  simp only [Prod.mk.injEq] at hsign
  refine bits_eq hsign.1.symm ?_
  obtain ⟨n, hn, hcovers⟩ := read_magnitude (of_decide_eq_true hx)
  obtain ⟨n', hn', hcovers'⟩ := read_magnitude (of_decide_eq_true hy)
  rw [show double.magnitude x.magnitudeBits = x.magnitude from rfl, ← hsign.2] at hn
  have hsame : n' = n := Option.some.inj (hn'.symm.trans hn)
  exact covers_unique hcovers (hsame ▸ hcovers')

end QueryLoom.Double
