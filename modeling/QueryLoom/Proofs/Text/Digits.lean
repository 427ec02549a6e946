import QueryLoom.Proofs.Text.Span
import QueryLoom.Text.Basic

/-!
# Padded numerals

A numeral with zeros to its left consists of digits, has the width that was asked for if the number
fits in it, and says the number.
-/

set_option autoImplicit false

namespace QueryLoom.Text

def paddedDigits (width n : Nat) : List Char := zeroPadded width (Nat.toDigits 10 n)

@[simp]
theorem toList_paddedNatural (width n : Nat) :
    (paddedNatural width n).toList = paddedDigits width n := String.toList_ofList

theorem paddedDigits_isDigit (width n : Nat) : ∀ c ∈ paddedDigits width n, c.isDigit = true := by
  intro c hc
  rcases List.mem_append.mp hc with hzero | hdigit
  · rw [List.eq_of_mem_replicate hzero]
    decide
  · exact Nat.isDigit_of_mem_toDigits (by decide) (by decide) hdigit

theorem width_le_length_paddedDigits (width n : Nat) : width ≤ (paddedDigits width n).length := by
  simp only [paddedDigits, zeroPadded, List.length_append, List.length_replicate]
  omega

theorem length_paddedDigits {width n : Nat} (hwidth : 0 < width) (hn : n < Nat.pow 10 width) :
    (paddedDigits width n).length = width := by
  have hlength := (Nat.length_toDigits_le_iff (by decide) hwidth).mpr hn
  simp only [paddedDigits, zeroPadded, List.length_append, List.length_replicate]
  omega

theorem value_paddedDigits (width n : Nat) :
    Nat.ofDigitChars 10 (paddedDigits width n) 0 = n := by
  rw [paddedDigits, zeroPadded, Nat.ofDigitChars_append, Nat.ofDigitChars_replicate_zero,
    Nat.mul_zero, Nat.ofDigitChars_ten_toDigits]

theorem isBlank_of_isDigit {c : Char} (h : c.isDigit = true) : isBlank c = false := by
  obtain ⟨hleast, hmost⟩ := Char.isDigit_iff_toNat.mp h
  have hzero : '0'.toNat = 48 := rfl
  have hnine : '9'.toNat = 57 := rfl
  simp [isBlank]
  omega

theorem paddedDigits_cons {width : Nat} (hwidth : 0 < width) (n : Nat) :
    ∃ c cs, paddedDigits width n = c :: cs ∧ c.isDigit = true := by
  have hlength := width_le_length_paddedDigits width n
  obtain ⟨c, cs, hcs⟩ := List.exists_cons_of_length_pos (Nat.lt_of_lt_of_le hwidth hlength)
  exact ⟨c, cs, hcs, paddedDigits_isDigit width n c (by simp [hcs])⟩

theorem paddedDigits_stops {width : Nat} (hwidth : 0 < width) (n : Nat) (rest : List Char) :
    Stops isBlank (paddedDigits width n ++ rest) := by
  obtain ⟨c, cs, hcs, hc⟩ := paddedDigits_cons hwidth n
  rw [hcs]
  exact stops_cons (isBlank_of_isDigit hc) (cs ++ rest)

/-! ## Base sixteen -/

def hexDigits (b : UInt8) : List Char :=
  [Nat.digitChar (b.toNat / 16), Nat.digitChar (b.toNat % 16)]

theorem toList_paddedHex_byte (b : UInt8) : (paddedHex 2 b.toNat).toList = hexDigits b := by
  have hb := b.toNat_lt
  rw [paddedHex, String.toList_ofList, zeroPadded, hexDigits, Nat.toDigits_eq_if (by decide)]
  split
  · rename_i hsmall
    rw [Nat.div_eq_of_lt hsmall, Nat.mod_eq_of_lt hsmall]
    rfl
  · rw [Nat.toDigits_of_lt_base (by omega)]
    rfl

theorem toList_hexBytes (bytes : List UInt8) :
    (hexBytes bytes).toList = bytes.flatMap hexDigits := by
  rw [hexBytes, String.toList_join, List.flatMap_map]
  congr 1
  exact funext toList_paddedHex_byte

theorem length_flatMap_hexDigits (bytes : List UInt8) :
    (bytes.flatMap hexDigits).length = 2 * bytes.length := by
  induction bytes with
  | nil => rfl
  | cons b bytes ih =>
    rw [List.flatMap_cons, List.length_append, ih]
    exact Nat.add_comm 2 _

theorem digitChar_injective : ∀ m < 16, ∀ n < 16, Nat.digitChar m = Nat.digitChar n → m = n := by
  decide

theorem digitChar_ascii : ∀ n < 16, (Nat.digitChar n).toNat < 128 := by decide

theorem hexDigits_injective {b c : UInt8} (h : hexDigits b = hexDigits c) : b = c := by
  have hb := b.toNat_lt
  have hc := c.toNat_lt
  simp only [hexDigits, List.cons.injEq, and_true] at h
  have hhigh := digitChar_injective _ (by omega) _ (by omega) h.1
  have hlow := digitChar_injective _ (by omega) _ (by omega) h.2
  apply UInt8.toNat_inj.mp
  omega

theorem flatMap_hexDigits_injective {bytes more : List UInt8}
    (h : bytes.flatMap hexDigits = more.flatMap hexDigits) : bytes = more := by
  induction bytes generalizing more with
  | nil =>
    cases more with
    | nil => rfl
    | cons c more => cases h
  | cons b bytes ih =>
    cases more with
    | nil => cases h
    | cons c more =>
      rw [List.flatMap_cons, List.flatMap_cons] at h
      obtain ⟨hdigits, hrest⟩ := List.append_inj h rfl
      rw [hexDigits_injective hdigits, ih hrest]

end QueryLoom.Text
