import QueryLoom.Json.Reader
import QueryLoom.Proofs.Json.Text
import QueryLoom.Proofs.Text.Numeral

/-!
# Reading written JSON

What the printer writes of a string, of a whole number of 64 bits, or of an array of such values is
read back as it was, in front of whatever may follow it. A character that was written with its
number comes back from the number, which is never that of a surrogate. Arrays are read back as deep
as the reader goes, and no deeper.
-/

set_option autoImplicit false

namespace QueryLoom.Json

open Floating

/-! ## Strings -/

inductive StringPart.Says (c : Char) : StringPart → Prop
  | char : Says c (.char c)
  | unit (h : c.toNat < 32) : Says c (.unit c.toNat)

theorem stringChars?_cons {c : Char} {p : StringPart} (hp : p.Says c) (parts : List StringPart) :
    stringChars? (p :: parts) = (stringChars? parts).map (c :: ·) := by
  cases hp with
  | char => rw [stringChars?]
  | unit h =>
    have hhigh : isHighSurrogate c.toNat = false := by
      simp only [isHighSurrogate, Bool.and_eq_false_iff, decide_eq_false_iff_not]
      omega
    have hlow : isLowSurrogate c.toNat = false := by
      simp only [isLowSurrogate, Bool.and_eq_false_iff, decide_eq_false_iff_not]
      omega
    cases parts <;> simp [stringChars?, hhigh, hlow, Char.ofNat_toNat]

/-- A control character is written as four digits of its number. -/
theorem control_digits : ∀ n < 32, ∃ a b c d,
    Text.zeroPadded 4 (Nat.toDigits 16 n) = [a, b, c, d] ∧
      Text.hexValue? [a, b, c, d] = some n := by
  have hall : ∀ n < 32, (Text.zeroPadded 4 (Nat.toDigits 16 n)).length = 4 ∧
      Text.hexValue? (Text.zeroPadded 4 (Nat.toDigits 16 n)) = some n := by decide
  intro n hn
  obtain ⟨hlength, hvalue⟩ := hall n hn
  obtain ⟨a, b, c, d, hdigits⟩ := List.length_eq_four.mp hlength
  exact ⟨a, b, c, d, hdigits, hdigits ▸ hvalue⟩

/-- A written character is read as one part of the string, whatever follows. -/
theorem readString?_escape (c : Char) : ∃ p : StringPart, p.Says c ∧ ∀ cs,
    readString? (escape c ++ cs) = (readString? cs).map fun r => (p :: r.1, r.2) := by
  unfold escape
  split
  case h_8 hquote hslash _ _ _ _ _ =>
    split
    · rename_i hcontrol
      obtain ⟨a, b, d, e, hdigits, hvalue⟩ := control_digits c.toNat hcontrol
      refine ⟨_, .unit hcontrol, fun cs => ?_⟩
      rw [hdigits]
      simp only [List.cons_append, List.nil_append, readString?, hvalue, Option.bind_eq_bind,
        Option.bind_some]
      rcases readString? cs with _ | ⟨parts, rest⟩ <;> rfl
    · rename_i hcontrol
      have hplain : ¬ (decide (c.toNat < 32) || c == '\\') = true := by
        simpa [hcontrol] using hslash
      refine ⟨_, .char, fun cs => ?_⟩
      rw [List.singleton_append, readString?, if_neg hplain]
      · rcases readString? cs with _ | ⟨parts, rest⟩ <;> rfl
      · exact hquote
      · exact fun _ _ _ _ _ heq _ => hslash heq
      · exact fun _ _ heq _ => hslash heq
  all_goals
    refine ⟨_, .char, fun cs => ?_⟩
    simp only [List.cons_append, List.nil_append, readString?, Option.bind_eq_bind,
      Option.bind_some]
    rcases readString? cs with _ | ⟨parts, rest⟩ <;> rfl

/-- A written string is read up to its closing quote, and its parts say its characters. -/
theorem readString?_body (cs rest : List Char) : ∃ parts,
    readString? (cs.flatMap escape ++ '"' :: rest) = some (parts, rest) ∧
      stringChars? parts = some cs := by
  induction cs with
  | nil => exact ⟨[], by rw [List.flatMap_nil, List.nil_append, readString?], by rw [stringChars?]⟩
  | cons c cs ih =>
    obtain ⟨parts, hread, hchars⟩ := ih
    obtain ⟨p, hp, hescape⟩ := readString?_escape c
    refine ⟨p :: parts, ?_, ?_⟩
    · rw [List.flatMap_cons, List.append_assoc, hescape, hread]
      rfl
    · rw [stringChars?_cons hp, hchars]
      rfl

/-! ## Numbers -/

/-- Nothing follows, or what may stand behind an item of an array. -/
def Delimited (rest : List Char) : Prop := ∀ c, rest.head? = some c → c = ',' ∨ c = ']'

theorem delimited_nil : Delimited [] := by
  intro c hc
  cases hc

theorem delimited_cons {c : Char} (hc : c = ',' ∨ c = ']') (rest : List Char) :
    Delimited (c :: rest) := by
  rintro d ⟨⟩
  exact hc

def wholeNumber (n : ℤ) : RawNumber := ⟨decide (n < 0), Nat.toDigits 10 n.natAbs, none, none⟩

variable {rest : List Char}

theorem readDigits?_natural (n : ℕ) (hrest : Delimited rest) :
    readDigits? (Nat.toDigits 10 n ++ rest) = some (Nat.toDigits 10 n, rest) := by
  have hstop : Text.Stops Char.isDigit rest := by
    intro c hc
    rcases hrest c hc with rfl | rfl <;> decide
  rw [readDigits?, Text.takeWhile_append (digits_isDigit n) hstop,
    Text.dropWhile_append (digits_isDigit n) hstop, if_neg (by simp [Nat.toDigits_ne_nil])]

theorem readFraction?_delimited (hrest : Delimited rest) :
    readFraction? rest = some (none, rest) := by
  unfold readFraction?
  split
  · rcases hrest '.' rfl with h | h <;> cases h
  · rfl

theorem readExponent?_delimited (hrest : Delimited rest) :
    Json.readExponent? rest = some (none, rest) := by
  cases rest with
  | nil => rfl
  | cons c cs =>
    rcases hrest c rfl with rfl | rfl <;> rfl

/-- No digit stands behind a zero at the beginning. -/
theorem natural_canonical (n : ℕ) :
    ¬ ((Nat.toDigits 10 n).head? = some '0' ∧ (Nat.toDigits 10 n).length ≠ 1) := by
  rintro ⟨hhead, hlength⟩
  by_cases hzero : n = 0
  · subst hzero
    exact hlength rfl
  · exact Text.head?_toDigits (Nat.pos_of_ne_zero hzero) hhead

theorem readNumber?_integer (n : ℤ) (hrest : Delimited rest) :
    readNumber? ((Text.integer n).toList ++ rest) = some (wholeNumber n, rest) := by
  have hcanonical : ((Nat.toDigits 10 n.natAbs).head? == some '0' &&
      decide ((Nat.toDigits 10 n.natAbs).length ≠ 1)) = false := by
    rw [Bool.eq_false_iff, ne_eq, Bool.and_eq_true, beq_iff_eq, decide_eq_true_eq]
    exact natural_canonical n.natAbs
  have hdigits := readDigits?_natural n.natAbs hrest
  unfold Text.integer Text.natural
  by_cases hneg : n < 0
  · have hchars : ("-" ++ String.ofList (Nat.toDigits 10 n.natAbs)).toList ++ rest =
        '-' :: (Nat.toDigits 10 n.natAbs ++ rest) := by simp
    rw [if_pos hneg, hchars]
    simp only [readNumber?, hdigits, Option.bind_eq_bind, Option.bind_some]
    rw [hcanonical]
    simp [readFraction?_delimited hrest, readExponent?_delimited hrest, wholeNumber, hneg]
  · obtain ⟨c, cs, hcs, -, hminus⟩ := Text.natural_cons n.natAbs
    rw [if_neg hneg, String.toList_ofList]
    unfold readNumber?
    split
    rename_i negative cs' hsign
    have hsigned : negative = false ∧ cs' = Nat.toDigits 10 n.natAbs ++ rest := by
      split at hsign
      · rename_i r hhead
        rw [hcs] at hhead
        exact absurd (List.cons.inj hhead).1 hminus
      · cases hsign
        exact ⟨rfl, rfl⟩
    obtain ⟨rfl, rfl⟩ := hsigned
    simp only [hdigits, Option.bind_eq_bind, Option.bind_some]
    rw [hcanonical]
    simp [readFraction?_delimited hrest, readExponent?_delimited hrest, wholeNumber, hneg]

/-- A whole number of 64 bits, or of 63 bits and a sign, stays whole. -/
theorem value?_wholeNumber {n : ℤ} (hlow : -2 ^ 63 ≤ n) (hhigh : n < 2 ^ 64) :
    (wholeNumber n).value? = some (.int n) := by
  have hlimit : significandLimit = 2 ^ 64 := by decide
  simp only [RawNumber.value?, wholeNumber, Nat.ofDigitChars_ten_toDigits, hlimit,
    Option.isNone_none]
  by_cases hneg : n < 0
  · have hbound : n.natAbs ≠ 0 ∧ 2 * n.natAbs ≤ 2 ^ 64 := by omega
    have hvalue : -(n.natAbs : ℤ) = n := by omega
    simp only [hneg, decide_true, Bool.not_true, Bool.false_and, Bool.false_eq_true, if_false,
      Bool.true_and, hbound, ne_eq, not_false_eq_true, Bool.and_self, if_true, hvalue]
  · have hbound : n.natAbs < 2 ^ 64 := by omega
    have hvalue : (n.natAbs : ℤ) = n := by omega
    simp only [hneg, decide_false, Bool.not_false, Bool.true_and, hbound, decide_true, if_true,
      hvalue]

/-! ## Values -/

/-- Values without members and doubles, whose whole numbers the reader keeps whole. -/
inductive Exact : Json → Prop
  | null : Exact .null
  | bool (b : Bool) : Exact (.bool b)
  | int (n : ℤ) (hlow : -2 ^ 63 ≤ n) (hhigh : n < 2 ^ 64) : Exact (.int n)
  | string (s : String) : Exact (.string s)
  | array (items : List Json) (h : ∀ j ∈ items, Exact j) : Exact (.array items)

mutual

def nesting : Json → Nat
  | .array items => itemsNesting items + 1
  | .object members => membersNesting members + 1
  | .null | .bool _ | .int _ | .float _ | .string _ => 0

def itemsNesting : List Json → Nat
  | [] => 0
  | j :: js => max j.nesting (itemsNesting js)

def membersNesting : List (String × Json) → Nat
  | [] => 0
  | (_, j) :: ms => max j.nesting (membersNesting ms)

end

/-- What the grammar finds stands for a value, unless it lies too deep. -/
def StandsFor (r : Raw) (j : Json) : Prop :=
  ∀ depth, ofRaw? depth r = if j.nesting ≤ depth then some j else none

theorem itemsOfRaw?_eq {rs : List Raw} {js : List Json} (h : List.Forall₂ StandsFor rs js)
    (depth : ℕ) :
    itemsOfRaw? depth rs = if itemsNesting js ≤ depth then some js else none := by
  induction h with
  | nil => simp [itemsOfRaw?, itemsNesting]
  | cons hr _ ih =>
    rw [itemsOfRaw?, hr depth, ih, itemsNesting]
    simp only [Nat.max_le]
    split <;> split <;> simp_all

theorem standsFor_array {rs : List Raw} {js : List Json} (h : List.Forall₂ StandsFor rs js) :
    StandsFor (.array rs) (.array js) := by
  intro depth
  cases depth with
  | zero => simp [ofRaw?, nesting]
  | succ depth =>
    rw [ofRaw?, if_neg (Nat.succ_ne_zero depth), nesting, Nat.add_sub_cancel, itemsOfRaw?_eq h]
    simp only [Nat.add_le_add_iff_right]
    split <;> rfl

def Reread (j : Json) : Prop :=
  ∀ fuel rest, j.chars.length ≤ fuel → Delimited rest →
    ∃ r, readValue? (fuel + 1) (j.chars ++ rest) = some (r, rest) ∧ StandsFor r j

theorem skipBlank_cons {c : Char} (hc : isJsonBlank c = false) (cs : List Char) :
    skipBlank (c :: cs) = c :: cs :=
  List.dropWhile_cons_of_neg (by simp [hc])

theorem numeric_not_blank {c : Char} (hc : isNumeric c = true) : isJsonBlank c = false := by
  rw [Bool.eq_false_iff]
  intro hb
  simp only [isJsonBlank, Bool.or_eq_true, beq_iff_eq] at hb
  rcases hb with ((rfl | rfl) | rfl) | rfl <;> exact absurd hc (by decide)

/-- No other value begins like a number. -/
theorem readValue?_number {c : Char} (hc : isNumeric c = true) (fuel : ℕ) (cs : List Char) :
    readValue? (fuel + 1) (c :: cs) =
      (readNumber? (c :: cs)).map fun r => (.number r.1, r.2) := by
  have hhead : ∀ d ds, c :: cs = d :: ds → isNumeric d = true := by
    rintro d ds ⟨⟩
    exact hc
  rw [readValue?, skipBlank_cons (numeric_not_blank hc)]
  split <;> first
    | rfl
    | exact absurd (hhead _ _ (by assumption)) (by decide)

theorem readValue?_quote (fuel : ℕ) (cs : List Char) :
    readValue? (fuel + 1) ('"' :: cs) =
      (readString? cs).map fun r => (.string r.1, r.2) := by
  rw [readValue?, skipBlank_cons (by decide)]
  rfl

theorem readValue?_bracket {c : Char} (hc : isJsonBlank c = false) (hend : c ≠ ']') (fuel : ℕ)
    (cs : List Char) :
    readValue? (fuel + 1) ('[' :: c :: cs) =
      (readItems? fuel (c :: cs)).map fun r => (.array r.1, r.2) := by
  have hitem : skipBlank (c :: cs) = c :: cs := skipBlank_cons hc cs
  rw [readValue?, skipBlank_cons (by decide)]
  simp only [hitem]
  split
  · rename_i heq
    exact absurd (List.cons.inj heq).1 hend
  · rfl

theorem reread_null : Reread .null := by
  intro fuel rest _ _
  refine ⟨.null, ?_, fun depth => ?_⟩
  · rw [chars]
    rfl
  · rw [ofRaw?, nesting, if_pos (Nat.zero_le depth)]

theorem reread_bool (b : Bool) : Reread (.bool b) := by
  intro fuel rest _ _
  refine ⟨.bool b, ?_, fun depth => ?_⟩
  · cases b <;> rw [chars] <;> rfl
  · rw [ofRaw?, nesting, if_pos (Nat.zero_le depth)]

theorem reread_int {n : ℤ} (hlow : -2 ^ 63 ≤ n) (hhigh : n < 2 ^ 64) : Reread (.int n) := by
  intro fuel rest _ hrest
  obtain ⟨c, cs, hcs⟩ := List.exists_cons_of_ne_nil (integer_ne_nil n)
  have hnumeric := (integer_numeric n c (by simp [hcs])).1
  refine ⟨.number (wholeNumber n), ?_, fun depth => ?_⟩
  · rw [chars, hcs, List.cons_append, readValue?_number hnumeric, ← List.cons_append, ← hcs,
      readNumber?_integer n hrest]
    rfl
  · rw [ofRaw?, nesting, if_pos (Nat.zero_le depth), value?_wholeNumber hlow hhigh]

theorem reread_string (s : String) : Reread (.string s) := by
  intro fuel rest _ _
  obtain ⟨parts, hread, hchars⟩ := readString?_body s.toList rest
  refine ⟨.string parts, ?_, fun depth => ?_⟩
  · have hquote : quote s ++ rest = '"' :: (s.toList.flatMap escape ++ '"' :: rest) := by
      simp [quote]
    rw [chars, hquote, readValue?_quote, hread]
    rfl
  · rw [ofRaw?, nesting, if_pos (Nat.zero_le depth), string?, hchars]
    simp

/-- Items that are read one by one are read together up to the closing bracket. -/
theorem readItems?_itemChars {j : Json} {js : List Json} (h : ∀ k ∈ j :: js, Reread k) {fuel : ℕ}
    (hfuel : (itemChars (j :: js)).length ≤ fuel) (rest : List Char) :
    ∃ rs, readItems? (fuel + 2) (itemChars (j :: js) ++ ']' :: rest) = some (rs, rest) ∧
      List.Forall₂ StandsFor rs (j :: js) := by
  have hclose : skipBlank (']' :: rest) = ']' :: rest := skipBlank_cons (by decide) rest
  have hcomma : ∀ cs, skipBlank (',' :: cs) = ',' :: cs := skipBlank_cons (by decide)
  induction js generalizing j fuel with
  | nil =>
    rw [itemChars] at hfuel ⊢
    obtain ⟨r, hread, hr⟩ := h j (by simp) fuel (']' :: rest) hfuel
      (delimited_cons (Or.inr rfl) rest)
    refine ⟨[r], ?_, .cons hr .nil⟩
    rw [readItems?, hread]
    simp [hclose]
  | cons k js ih =>
    rw [itemChars, List.length_append, List.length_cons] at hfuel
    have hcons : itemChars (j :: k :: js) ++ ']' :: rest =
        j.chars ++ ',' :: (itemChars (k :: js) ++ ']' :: rest) := by simp [itemChars]
    obtain ⟨r, hread, hr⟩ := h j (by simp) fuel (',' :: (itemChars (k :: js) ++ ']' :: rest))
      (by omega) (delimited_cons (Or.inl rfl) _)
    obtain ⟨less, rfl⟩ : ∃ f, fuel = f + 1 := ⟨fuel - 1, by omega⟩
    have hless : (itemChars (k :: js)).length ≤ less := by omega
    obtain ⟨rs, hreads, hrs⟩ := ih (fun i hi => h i (List.mem_cons_of_mem j hi)) hless
    refine ⟨r :: rs, ?_, .cons hr hrs⟩
    rw [hcons, readItems?, hread]
    simp [hcomma, hreads]

/-- A value begins with what shows its kind: with no blank, and not like the end of an array. -/
theorem Exact.chars_cons {j : Json} (h : j.Exact) :
    ∃ c cs, j.chars = c :: cs ∧ isJsonBlank c = false ∧ c ≠ ']' := by
  cases h with
  | null => exact ⟨'n', _, by rw [chars], by decide, by decide⟩
  | bool b =>
    cases b
    · exact ⟨'f', _, by rw [chars], by decide, by decide⟩
    · exact ⟨'t', _, by rw [chars], by decide, by decide⟩
  | int n =>
    obtain ⟨c, cs, hcs⟩ := List.exists_cons_of_ne_nil (integer_ne_nil n)
    have hnumeric := (integer_numeric n c (by simp [hcs])).1
    refine ⟨c, cs, by rw [chars, hcs], numeric_not_blank hnumeric, ?_⟩
    rintro rfl
    exact absurd hnumeric (by decide)
  | string s => exact ⟨'"', _, by rw [chars, quote, List.cons_append], by decide, by decide⟩
  | array items => exact ⟨'[', _, array_chars items, by decide, by decide⟩

theorem reread_array {items : List Json} (hexact : ∀ j ∈ items, j.Exact)
    (h : ∀ j ∈ items, Reread j) : Reread (.array items) := by
  intro fuel rest hfuel _
  rw [array_chars] at hfuel ⊢
  have hchars : '[' :: (itemChars items ++ [']']) ++ rest =
      '[' :: (itemChars items ++ ']' :: rest) := by simp
  rw [hchars]
  cases items with
  | nil =>
    refine ⟨.array [], ?_, standsFor_array .nil⟩
    rw [readValue?, itemChars, List.nil_append, skipBlank_cons (by decide)]
    rfl
  | cons j js =>
    simp only [List.length_cons, List.length_append, List.length_nil] at hfuel
    obtain ⟨less, rfl⟩ : ∃ f, fuel = f + 2 := ⟨fuel - 2, by omega⟩
    have hless : (itemChars (j :: js)).length ≤ less := by omega
    obtain ⟨rs, hread, hrs⟩ := readItems?_itemChars h hless rest
    obtain ⟨c, cs, hcs, hblank, hend⟩ := (hexact j (by simp)).chars_cons
    refine ⟨.array rs, ?_, standsFor_array hrs⟩
    have hhead : itemChars (j :: js) ++ ']' :: rest =
        c :: (cs ++ ((js.flatMap fun k => ',' :: k.chars) ++ ']' :: rest)) := by
      rw [itemChars_cons, hcs]
      simp
    rw [hhead] at hread ⊢
    rw [readValue?_bracket hblank hend, hread]
    rfl

theorem Exact.reread {j : Json} (h : j.Exact) : j.Reread := by
  induction h with
  | null => exact reread_null
  | bool b => exact reread_bool b
  | int n hlow hhigh => exact reread_int hlow hhigh
  | string s => exact reread_string s
  | array items h ih => exact reread_array h ih

/-- An exact value comes back from its text, unless it lies deeper than the reader goes. -/
theorem Exact.read?_text {j : Json} (h : j.Exact) :
    read? j.text = if j.nesting ≤ maxDepth then some j else none := by
  obtain ⟨r, hread, hr⟩ := h.reread (2 * j.chars.length + 1) [] (by omega) delimited_nil
  have hraw : readRaw? j.text = some r := by
    rw [List.append_nil] at hread
    simp [readRaw?, text, hread, skipBlank]
  rw [read?, hraw, Option.bind_some, hr]

end QueryLoom.Json
