import QueryLoom.Wire.Bytes

/-!
# Words and their bytes

A number that was read from bytes, with or without a sign, is written as the same bytes again if
the word is as long as they are. A number that the word has room for is read from its bytes, and a
reader takes it off the front of longer ones.
-/

set_option autoImplicit false

namespace QueryLoom.Wire

theorem unsigned_cons (b : UInt8) (bytes : List UInt8) :
    unsigned (b :: bytes) = b.toNat * Nat.pow 256 bytes.length + unsigned bytes := by
  have hfold : ∀ k, bytes.foldl (fun n b => 256 * n + b.toNat) k =
      k * Nat.pow 256 bytes.length + unsigned bytes := by
    induction bytes with
    | nil => simp [unsigned]
    | cons c bytes ih =>
      intro k
      have hpow : Nat.pow 256 (c :: bytes).length = 256 * Nat.pow 256 bytes.length :=
        Nat.mul_comm _ _
      rw [unsigned, List.foldl_cons, List.foldl_cons, ih, ih (256 * 0 + c.toNat), hpow]
      grind
  rw [unsigned, List.foldl_cons, hfold, Nat.mul_zero, Nat.zero_add]

theorem unsigned_lt (bytes : List UInt8) : unsigned bytes < Nat.pow 256 bytes.length := by
  induction bytes with
  | nil => decide
  | cons b bytes ih =>
    have hpow : Nat.pow 256 (b :: bytes).length = 256 * Nat.pow 256 bytes.length := Nat.mul_comm _ _
    have hb : b.toNat * Nat.pow 256 bytes.length ≤ 255 * Nat.pow 256 bytes.length :=
      Nat.mul_le_mul_right _ (Nat.le_of_lt_succ b.toNat_lt)
    rw [unsigned_cons, hpow]
    omega

/-- What lies beyond the word is cut off. -/
theorem word_unsigned_add (bytes : List UInt8) (k : Nat) :
    word bytes.length (k * Nat.pow 256 bytes.length + unsigned bytes) = bytes := by
  induction bytes generalizing k with
  | nil => rfl
  | cons b bytes ih =>
    have hpow : Nat.pow 256 (b :: bytes).length = 256 * Nat.pow 256 bytes.length := Nat.mul_comm _ _
    have hsplit : k * Nat.pow 256 (b :: bytes).length + unsigned (b :: bytes) =
        (256 * k + b.toNat) * Nat.pow 256 bytes.length + unsigned bytes := by
      rw [unsigned_cons, hpow]
      grind
    have hhead : ((256 * k + b.toNat) * Nat.pow 256 bytes.length + unsigned bytes) /
        Nat.pow 256 bytes.length = 256 * k + b.toNat := by
      rw [Nat.mul_comm, Nat.mul_add_div (Nat.zero_lt_of_lt (unsigned_lt bytes)),
        Nat.div_eq_of_lt (unsigned_lt bytes), Nat.add_zero]
    rw [hsplit, List.length_cons, word, hhead, ih]
    congr 1
    apply UInt8.toNat_inj.mp
    simp

theorem word_unsigned (bytes : List UInt8) : word bytes.length (unsigned bytes) = bytes := by
  simpa using word_unsigned_add bytes 0

/-- A number with a sign is written as the bytes that it was read from. -/
theorem signedWord_signed (bytes : List UInt8) :
    signedWord bytes.length (signed bytes) = bytes := by
  have hlt := unsigned_lt bytes
  have hmod : (signed bytes % Nat.pow 256 bytes.length).toNat = unsigned bytes := by
    simp only [signed]
    generalize Nat.pow 256 bytes.length = m at hlt ⊢
    split
    · rw [Int.emod_eq_of_lt (by omega) (by omega)]
      omega
    · rw [Int.sub_emod_right, Int.emod_eq_of_lt (by omega) (by omega)]
      omega
  rw [signedWord, hmod, word_unsigned]

theorem signed?_eq_some {width : Nat} {bytes : List UInt8} {n : Int} :
    signed? width bytes = some n ↔ bytes.length = width ∧ signed bytes = n := by
  rw [signed?, exactly?]
  split <;> simp_all

/-! ## Numbers tell their words -/

@[simp]
theorem length_word (width n : Nat) : (word width n).length = width := by
  induction width with
  | zero => rfl
  | succ width ih => rw [word, List.length_cons, ih]

/-- What there is no room for is cut off. -/
theorem unsigned_word (width n : Nat) : unsigned (word width n) = n % Nat.pow 256 width := by
  induction width with
  | zero => exact (Nat.mod_one n).symm
  | succ width ih =>
    have hpow : Nat.pow 256 (width + 1) = Nat.pow 256 width * 256 := rfl
    rw [word, unsigned_cons, length_word, ih, hpow, Nat.mod_mul, UInt8.toNat_ofNat']
    exact (Nat.add_comm _ _).trans (congrArg _ (Nat.mul_comm _ _))

theorem unsigned_word_of_lt {width n : Nat} (h : n < Nat.pow 256 width) :
    unsigned (word width n) = n := by
  rw [unsigned_word, Nat.mod_eq_of_lt h]

theorem unsigned?_word {width n : Nat} (h : n < Nat.pow 256 width) :
    unsigned? width (word width n) = some n := by
  rw [unsigned?, exactly?, if_pos (length_word width n), Option.map_some, unsigned_word_of_lt h]

/-- Half of the words stand for the numbers below zero. -/
theorem signed_signedWord {width : Nat} {n : Int} (hlow : -(Nat.pow 256 width : Int) ≤ 2 * n)
    (hhigh : 2 * n < Nat.pow 256 width) : signed (signedWord width n) = n := by
  have hlength : (signedWord width n).length = width := length_word width _
  have hpos : 0 < Nat.pow 256 width := Nat.pow_pos (by decide)
  have hread : unsigned (signedWord width n) = (n % Nat.pow 256 width).toNat := by
    have hlt := Int.emod_lt_of_pos n (Int.natCast_pos.mpr hpos)
    exact unsigned_word_of_lt (by omega)
  simp only [signed, hlength, hread]
  generalize Nat.pow 256 width = m at *
  by_cases hneg : n < 0
  · have hmod : n % (m : Int) = n + m := by
      rw [← Int.add_emod_right, Int.emod_eq_of_lt (by omega) (by omega)]
    rw [hmod, if_neg (by omega)]
    omega
  · rw [Int.emod_eq_of_lt (by omega) (by omega), if_pos (by omega)]
    omega

theorem signed?_signedWord {width : Nat} {n : Int} (hlow : -(Nat.pow 256 width : Int) ≤ 2 * n)
    (hhigh : 2 * n < Nat.pow 256 width) : signed? width (signedWord width n) = some n :=
  signed?_eq_some.mpr ⟨length_word width _, signed_signedWord hlow hhigh⟩

/-! ## Words in front of other bytes -/

namespace Reader

theorem take_run (bytes rest : List UInt8) :
    (take bytes.length).run (bytes ++ rest) = some (bytes, rest) := by
  simp [StateT.run, take]

theorem unsigned_run {width n : Nat} (h : n < Nat.pow 256 width) (rest : List UInt8) :
    (unsigned width).run (word width n ++ rest) = some (n, rest) := by
  have htake := take_run (word width n) rest
  rw [length_word] at htake
  simp only [unsigned, StateT.run_bind, htake]
  simp [unsigned_word_of_lt h]

theorem signed_run {width : Nat} {n : Int} (hlow : -(Nat.pow 256 width : Int) ≤ 2 * n)
    (hhigh : 2 * n < Nat.pow 256 width) (rest : List UInt8) :
    (signed width).run (signedWord width n ++ rest) = some (n, rest) := by
  have htake := take_run (signedWord width n) rest
  rw [show (signedWord width n).length = width from length_word width _] at htake
  simp only [signed, StateT.run_bind, htake]
  simp [signed_signedWord hlow hhigh]

/-- Items that are each read back are read back in a row. -/
theorem times_run {α : Type} {read : Reader α} {write : α → List UInt8} {as : List α}
    (h : ∀ a ∈ as, ∀ rest, read.run (write a ++ rest) = some (a, rest)) (rest : List UInt8) :
    (times read as.length).run (as.flatMap write ++ rest) = some (as, rest) := by
  induction as with
  | nil => rfl
  | cons a as ih =>
    have hmore := ih fun b hb => h b (List.mem_cons_of_mem a hb)
    rw [List.length_cons, times, List.flatMap_cons, List.append_assoc]
    simp [h a List.mem_cons_self, hmore]

end Reader

end QueryLoom.Wire
