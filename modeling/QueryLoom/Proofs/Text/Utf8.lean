import Mathlib.Data.List.Basic
import Mathlib.Tactic.SplitIfs
import QueryLoom.Text.Utf8

/-!
# Characters read back from their bytes

The bytes of a character are read as this character, whatever stands behind them. So a text is read
back from its bytes without a gap, and a lossy reading loses nothing of it.
-/

set_option autoImplicit false

namespace QueryLoom.Text.Utf8

variable {a b c d : UInt8}

theorem isContinuation_iff : isContinuation b = true ↔ 0x80 ≤ b.toNat ∧ b.toNat ≤ 0xBF := by
  simp [isContinuation, UInt8.le_iff_toNat_le]

theorem followsThree_iff : followsThree a b = true ↔
    0x80 ≤ b.toNat ∧ b.toNat ≤ 0xBF ∧ (a.toNat = 0xE0 → 0xA0 ≤ b.toNat) ∧
      (a.toNat = 0xED → b.toNat ≤ 0x9F) := by
  unfold followsThree
  split_ifs <;> simp_all [isContinuation, UInt8.le_iff_toNat_le, ← UInt8.toNat_inj] <;> omega

theorem followsFour_iff : followsFour a b = true ↔
    0x80 ≤ b.toNat ∧ b.toNat ≤ 0xBF ∧ (a.toNat = 0xF0 → 0x90 ≤ b.toNat) ∧
      (a.toNat = 0xF4 → b.toNat ≤ 0x8F) := by
  unfold followsFour
  split_ifs <;> simp_all [isContinuation, UInt8.le_iff_toNat_le, ← UInt8.toNat_inj] <;> omega

/-! ## The forms of a character -/

theorem scan_one (ha : a.toNat < 0x80) (bs : List UInt8) :
    scan (a :: bs) = some (Char.ofNat a.toNat) :: scan bs := by
  rw [scan.eq_def]
  simp [UInt8.lt_iff_toNat_lt, ha]

theorem scan_two (hleast : 0xC2 ≤ a.toNat) (hmost : a.toNat ≤ 0xDF) (hb : isContinuation b = true)
    (bs : List UInt8) : scan (a :: b :: bs) = some (assemble a 5 [b]) :: scan bs := by
  have hascii : ¬ a.toNat < 0x80 := by omega
  rw [scan.eq_def]
  simp [UInt8.lt_iff_toNat_lt, UInt8.le_iff_toNat_le, hascii, hleast, hmost, hb]

theorem scan_three (hleast : 0xE0 ≤ a.toNat) (hmost : a.toNat ≤ 0xEF)
    (hb : followsThree a b = true) (hc : isContinuation c = true) (bs : List UInt8) :
    scan (a :: b :: c :: bs) = some (assemble a 4 [b, c]) :: scan bs := by
  have hascii : ¬ a.toNat < 0x80 := by omega
  have htwo : ¬ a.toNat ≤ 0xDF := by omega
  rw [scan.eq_def]
  simp [UInt8.lt_iff_toNat_lt, UInt8.le_iff_toNat_le, hascii, htwo, hleast, hmost, hb, hc]

theorem scan_four (hleast : 0xF0 ≤ a.toNat) (hmost : a.toNat ≤ 0xF4)
    (hb : followsFour a b = true) (hc : isContinuation c = true) (hd : isContinuation d = true)
    (bs : List UInt8) :
    scan (a :: b :: c :: d :: bs) = some (assemble a 3 [b, c, d]) :: scan bs := by
  have hascii : ¬ a.toNat < 0x80 := by omega
  have htwo : ¬ a.toNat ≤ 0xDF := by omega
  have hthree : ¬ a.toNat ≤ 0xEF := by omega
  rw [scan.eq_def]
  simp [UInt8.lt_iff_toNat_lt, UInt8.le_iff_toNat_le, hascii, htwo, hthree, hleast, hmost, hb, hc,
    hd]

/-! ## Code points -/

theorem toNat_byte {n : Nat} (h : n < 256) : (UInt8.ofNat n).toNat = n := UInt8.toNat_ofNat_of_lt' h

theorem isContinuation_low (n : Nat) : isContinuation (UInt8.ofNat (n % 64 + 128)) = true := by
  rw [isContinuation_iff, toNat_byte (by omega)]
  omega

/-- The character whose bits are those that count in the lead byte, and six of each byte behind. -/
theorem assemble_bytes (lead low : Nat) (tail : List Nat) {n : Nat} (hlead : lead < 256)
    (htail : ∀ m ∈ tail, m < 64)
    (hn : tail.foldl (fun k m => 64 * k + m) (lead % Nat.pow 2 low) = n) :
    assemble (UInt8.ofNat lead) low (tail.map fun m => UInt8.ofNat (m + 128)) = Char.ofNat n := by
  have hbyte : ∀ k, ∀ m ∈ tail, 64 * k + (UInt8.ofNat (m + 128)).toNat % 64 = 64 * k + m := by
    intro k m hm
    have hm' := htail m hm
    rw [toNat_byte (by omega)]
    omega
  rw [assemble, toNat_byte hlead, List.foldl_map, List.foldl_ext _ _ _ hbyte, hn]

theorem scan_encodeChar (x : Char) (bs : List UInt8) :
    scan (String.utf8EncodeChar x ++ bs) = some x :: scan bs := by
  have hvalid : x.toNat < 0xD800 ∨ 0xDFFF < x.toNat ∧ x.toNat < 0x110000 := x.valid
  have hx : Char.ofNat x.toNat = x := Char.ofNat_toNat x
  revert hvalid hx
  rw [String.utf8EncodeChar.eq_1, show x.val.toNat = x.toNat from rfl]
  generalize x.toNat = n
  intro hvalid hx
  rw [← hx]
  -- One case for each length, in the order of the bounds on the code point.
  split
  case isTrue h =>
    have hn := toNat_byte (show n < 256 by omega)
    rw [List.singleton_append, scan_one (by omega), hn]
  case isFalse h =>
    split
    case isTrue h' =>
      have hlead := toNat_byte (show n / 64 % 32 + 192 < 256 by omega)
      have hchar := assemble_bytes (n / 64 % 32 + 192) 5 [n % 64] (by omega) (by simp; omega)
        (show 64 * ((n / 64 % 32 + 192) % 32) + n % 64 = n by omega)
      rw [List.cons_append, List.singleton_append,
        scan_two (by omega) (by omega) (isContinuation_low n)]
      exact congrArg (some · :: scan bs) hchar
    case isFalse h' =>
      split
      case isTrue h'' =>
        have hlead := toNat_byte (show n / 4096 % 16 + 224 < 256 by omega)
        have hnext := toNat_byte (show n / 64 % 64 + 128 < 256 by omega)
        have hchar := assemble_bytes (n / 4096 % 16 + 224) 4 [n / 64 % 64, n % 64] (by omega)
          (by simp; omega)
          (show 64 * (64 * ((n / 4096 % 16 + 224) % 16) + n / 64 % 64) + n % 64 = n by omega)
        simp only [List.cons_append, List.nil_append]
        rw [scan_three (by omega) (by omega) (followsThree_iff.mpr (by omega))
          (isContinuation_low n)]
        exact congrArg (some · :: scan bs) hchar
      case isFalse h'' =>
        have hlead := toNat_byte (show n / 262144 % 8 + 240 < 256 by omega)
        have hnext := toNat_byte (show n / 4096 % 64 + 128 < 256 by omega)
        have hchar := assemble_bytes (n / 262144 % 8 + 240) 3 [n / 4096 % 64, n / 64 % 64, n % 64]
          (by omega) (by simp; omega)
          (show 64 * (64 * (64 * ((n / 262144 % 8 + 240) % 8) + n / 4096 % 64) + n / 64 % 64) +
            n % 64 = n by omega)
        simp only [List.cons_append, List.nil_append]
        rw [scan_four (by omega) (by omega) (followsFour_iff.mpr (by omega))
          (isContinuation_low (n / 64)) (isContinuation_low n)]
        exact congrArg (some · :: scan bs) hchar

/-! ## Texts -/

theorem scan_encode (cs : List Char) : scan (encode cs) = cs.map some := by
  induction cs with
  | nil => simp [encode, scan]
  | cons x cs ih => rw [encode, List.flatMap_cons, scan_encodeChar, ← encode, ih, List.map_cons]

/-- Nothing of a text is replaced. -/
theorem decodeLossy_encode (cs : List Char) : decodeLossy (encode cs) = cs := by
  rw [decodeLossy, scan_encode, List.map_map]
  exact List.map_id cs

theorem encode_injective {cs ds : List Char} (h : encode cs = encode ds) : cs = ds := by
  rw [← decodeLossy_encode cs, h, decodeLossy_encode]

/-! ## ASCII -/

theorem encodeChar_ascii {c : Char} (h : c.toNat < 128) :
    String.utf8EncodeChar c = [UInt8.ofNat c.toNat] := by
  have hcode : c.val.toNat ≤ 127 := Nat.le_of_lt_succ h
  rw [String.utf8EncodeChar.eq_1, if_pos hcode]
  rfl

theorem encode_ascii {cs : List Char} (h : ∀ c ∈ cs, c.toNat < 128) :
    encode cs = cs.map fun c => UInt8.ofNat c.toNat := by
  induction cs with
  | nil => rfl
  | cons c cs ih =>
    rw [encode, List.flatMap_cons, encodeChar_ascii (h c List.mem_cons_self), ← encode,
      ih fun d hd => h d (List.mem_cons_of_mem c hd)]
    rfl

end QueryLoom.Text.Utf8
