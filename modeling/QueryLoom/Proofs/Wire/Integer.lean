import QueryLoom.Proofs.Text.Numeral
import QueryLoom.Proofs.Wire.Numeric
import QueryLoom.Proofs.Wire.Text
import QueryLoom.Record

/-!
# Integers written and read

An integer goes to a type of words if the word has room for it, and to decimals and texts always.
What is written is read as the same integer, from a decimal and from a text by way of its numeral.
A word takes the numeral as it takes the integer: the same bytes, or refused both times.
-/

set_option autoImplicit false

namespace QueryLoom

open Wire

namespace Scalar

def integral : List Scalar := [.int2, .int4, .int8, .oid, .numeric, .varchar, .text, .bpchar, .name]

def HasInteger (s : Scalar) (n : Int) : Prop :=
  match s with
  | .int2 => -0x8000 ≤ n ∧ n < 0x8000
  | .int4 => -0x80000000 ≤ n ∧ n < 0x80000000
  | .int8 => -0x8000000000000000 ≤ n ∧ n < 0x8000000000000000
  | .oid => 0 ≤ n ∧ n < 0x100000000
  | _ => True

def Tells (s : Scalar) (raw : List UInt8) (n : Int64) : Prop :=
  ∃ v, decode? (.scalar s) raw = some v ∧ Value.Reader.int64 v = .ok n

/-- An integer of the type is written so that it can be read, any other one is refused. -/
def Carries (s : Scalar) (n : Int64) : Prop :=
  (s.HasInteger n.toInt ∧ ∃ raw, encodeInt n (.scalar s) = .ok raw ∧ s.Tells raw n) ∨
    (¬ s.HasInteger n.toInt ∧ ∃ e, encodeInt n (.scalar s) = .error e)

end Scalar

/-! ## Numerals -/

theorem Text.Range.check_int64 (n : Int64) : (Range.signed 64).check n.toInt = .ok n.toInt := by
  have hlow := n.le_toInt
  have hhigh := n.toInt_lt
  refine Range.check_eq_ok.mpr ⟨?_, rfl⟩
  change -0x8000000000000000 ≤ n.toInt ∧ n.toInt ≤ 0x7fffffffffffffff
  omega

/-- A text that is the numeral of an integer is read as the integer. -/
theorem Value.Reader.int64_numeral (n : Int64) : int64 (.text (Text.integer n.toInt)) = .ok n := by
  have hread : (Text.Range.signed 64).read (Text.integer n.toInt) = .ok n.toInt := by
    rw [Text.Range.read_integer (by decide), Text.Range.check_int64]
  simp only [int64, hread, Int64.ofInt_toInt]

theorem Decimal.text_ofInt64 (n : Int64) : (Decimal.ofInt64 n).text = Text.integer n.toInt := by
  have hpad : Text.zeroPadded 1 (Nat.toDigits 10 n.toInt.natAbs) =
      Nat.toDigits 10 n.toInt.natAbs := by
    have hlength := Nat.length_toDigits_pos (b := 10) (n := n.toInt.natAbs)
    rw [Text.zeroPadded, show 1 - (Nat.toDigits 10 n.toInt.natAbs).length = 0 by omega]
    rfl
  unfold Decimal.text Decimal.ofInt64 Text.integer Text.natural
  simp only [Nat.zero_add, hpad, Nat.sub_zero, List.take_length, if_true, List.append_nil,
    decide_eq_true_eq]
  split
  · rw [String.ofList_append]
  · rfl

namespace Wire

/-! ## Words -/

variable {width : Nat} {r : Text.Range} {n : Int64}

theorem encodeRanged_of_mem (h : -(r.below : Int) ≤ n.toInt ∧ n.toInt ≤ r.above) :
    encodeRanged width r n = .ok (signedWord width n.toInt) := by
  rw [encodeRanged, Text.Range.check_eq_ok.mpr ⟨h, rfl⟩]
  rfl

theorem encodeRanged_of_not_mem (h : ¬ (-(r.below : Int) ≤ n.toInt ∧ n.toInt ≤ r.above)) :
    ∃ e, encodeRanged width r n = .error e := by
  rw [encodeRanged]
  cases hcheck : r.check n.toInt with
  | error e => exact ⟨.range e, rfl⟩
  | ok m => exact absurd (Text.Range.check_eq_ok.mp hcheck).1 h

/-- The numeral of an integer is written as the integer is. -/
theorem agree_encodeNumeral (width : Nat) (n : Int64) :
    Agree ((encodeNumeral width (Text.integer n.toInt)).map some)
      ((encodeRanged width (.signed (8 * width)) n).map some) := by
  have hbelow : 0 < (Text.Range.signed (8 * width)).below := Nat.pow_pos (by decide)
  rw [encodeNumeral, encodeRanged, Text.Range.read_integer hbelow]
  cases (Text.Range.signed (8 * width)).check n.toInt <;> rfl

theorem encodeInt_int8 (n : Int64) :
    encodeInt n (.scalar .int8) = encodeRanged 8 (.signed 64) n := by
  rw [encodeRanged, Text.Range.check_int64]
  rfl

end Wire

namespace Scalar

variable {s : Scalar} {n : Int64}

theorem carries_word {width : Nat} {r : Text.Range}
    (hencode : encodeInt n (.scalar s) = encodeRanged width r n)
    (hrange : s.HasInteger n.toInt ↔ -(r.below : Int) ≤ n.toInt ∧ n.toInt ≤ r.above)
    (htells : s.HasInteger n.toInt → s.Tells (signedWord width n.toInt) n) : s.Carries n := by
  by_cases h : s.HasInteger n.toInt
  · exact Or.inl ⟨h, _, hencode.trans (encodeRanged_of_mem (hrange.mp h)), htells h⟩
  · obtain ⟨e, he⟩ := encodeRanged_of_not_mem (mt hrange.mpr h)
    exact Or.inr ⟨h, e, hencode.trans he⟩

theorem tells_signed {width : Nat}
    (hdecode : ∀ raw, decode? (.scalar s) raw = signedValue? width raw)
    (hlow : -(Nat.pow 256 width : Int) ≤ 2 * n.toInt)
    (hhigh : 2 * n.toInt < Nat.pow 256 width) : s.Tells (signedWord width n.toInt) n := by
  refine ⟨.int n, ?_, rfl⟩
  rw [hdecode, signedValue?, signed?_signedWord hlow hhigh, Option.map_some, Value.ofInt,
    Int64.ofInt_toInt]

theorem carries_signed {width : Nat}
    (hencode : encodeInt n (.scalar s) = encodeRanged width (.signed (8 * width)) n)
    (hdecode : ∀ raw, decode? (.scalar s) raw = signedValue? width raw)
    (hpow : 2 * Nat.pow 2 (8 * width - 1) = Nat.pow 256 width)
    (hrange : s.HasInteger n.toInt ↔
      -(Nat.pow 256 width : Int) ≤ 2 * n.toInt ∧ 2 * n.toInt < Nat.pow 256 width) :
    s.Carries n := by
  refine carries_word hencode ?_ fun h =>
    tells_signed hdecode (hrange.mp h).1 (hrange.mp h).2
  have hpos : 0 < Nat.pow 2 (8 * width - 1) := Nat.pow_pos (by decide)
  rw [hrange, ← hpow]
  simp only [Text.Range.signed]
  omega

theorem carries_int2 (n : Int64) : int2.Carries n := by
  refine carries_signed rfl (fun _ => rfl) rfl ?_
  change -0x8000 ≤ n.toInt ∧ n.toInt < 0x8000 ↔ -0x10000 ≤ 2 * n.toInt ∧ 2 * n.toInt < 0x10000
  omega

theorem carries_int4 (n : Int64) : int4.Carries n := by
  refine carries_signed rfl (fun _ => rfl) rfl ?_
  change -0x80000000 ≤ n.toInt ∧ n.toInt < 0x80000000 ↔
    -0x100000000 ≤ 2 * n.toInt ∧ 2 * n.toInt < 0x100000000
  omega

theorem carries_int8 (n : Int64) : int8.Carries n := by
  refine carries_signed (encodeInt_int8 n) (fun _ => rfl) rfl ?_
  change -0x8000000000000000 ≤ n.toInt ∧ n.toInt < 0x8000000000000000 ↔
    -0x10000000000000000 ≤ 2 * n.toInt ∧ 2 * n.toInt < 0x10000000000000000
  omega

/-- A word without a sign has twice as many numbers above zero. -/
theorem carries_oid (n : Int64) : oid.Carries n := by
  have hencode : encodeInt n (.scalar .oid) = encodeRanged 4 (.unsigned 32) n := rfl
  refine carries_word hencode ?_ fun h => ⟨.int n, ?_, rfl⟩
  · change 0 ≤ n.toInt ∧ n.toInt < 0x100000000 ↔ -0 ≤ n.toInt ∧ n.toInt ≤ 0xffffffff
    omega
  · obtain ⟨hlow, hhigh⟩ : 0 ≤ n.toInt ∧ n.toInt < 0x100000000 := h
    have hmod : n.toInt % (Nat.pow 256 4 : Nat) = n.toInt := Int.emod_eq_of_lt hlow hhigh
    have hword : signedWord 4 n.toInt = word 4 n.toInt.toNat := by rw [signedWord, hmod]
    have hread : unsigned? 4 (word 4 n.toInt.toNat) = some n.toInt.toNat :=
      unsigned?_word ((Int.toNat_lt hlow).mpr hhigh)
    have hvalue : Value.ofInt (n.toInt.toNat : Int) = .int n := by
      rw [Int.toNat_of_nonneg hlow, Value.ofInt, Int64.ofInt_toInt]
    change unsignedValue? 4 (signedWord 4 n.toInt) = some (.int n)
    rw [hword, unsignedValue?, hread]
    exact congrArg some hvalue

/-! ## Texts of integers -/

theorem tells_numeral {raw : List UInt8}
    (h : decode? (.scalar s) raw = some (.text (Text.integer n.toInt))) : s.Tells raw n :=
  ⟨_, h, Value.Reader.int64_numeral n⟩

theorem carries_numeric (n : Int64) : numeric.Carries n := by
  refine Or.inl ⟨trivial, _, rfl, tells_numeral ?_⟩
  have hsign : (Decimal.ofInt64 n).coefficient = 0 → (Decimal.ofInt64 n).negative = false := by
    intro hzero
    have hn : n.toInt.natAbs = 0 := hzero
    exact decide_eq_false (by omega)
  obtain ⟨m, hm, hd⟩ := Option.bind_eq_some_iff.mp
    (Numeric.decoded_whole (show (Decimal.ofInt64 n).scale = 0 from rfl) hsign)
  rw [← Decimal.text_ofInt64, decode?, decodeScalar?, hm]
  simp only [Option.bind_eq_bind, Option.bind_some, hd]
  rfl

/-- The mark of a version belongs to declared types only. -/
theorem isVersioned_eq_false (s : Scalar) : (WireType.scalar s).isVersioned = false := by
  cases s <;> decide

theorem carries_text (hs : s.isText = true) (n : Int64) : s.Carries n := by
  have hhas : s.HasInteger n.toInt := by
    cases s with
    | varchar | text | bpchar | name | unknown => trivial
    | _ => cases hs
  have hencode : encodeInt n (.scalar s) =
      .ok (encodeText (.scalar s) (Text.integer n.toInt)) := by
    cases s with
    | varchar | text | bpchar | name | unknown => rfl
    | _ => cases hs
  refine Or.inl ⟨hhas, _, hencode, tells_numeral ?_⟩
  have hplain : (WireType.scalar s).isPlain = true := hs
  rw [decode?_of_isPlain hplain, encodeText_eq, lossyText_encode, String.ofList_toList,
    WireType.mark, isVersioned_eq_false]
  simp

theorem carries_of_mem (h : s ∈ integral) (n : Int64) : s.Carries n := by
  simp only [integral, List.mem_cons, List.not_mem_nil, or_false] at h
  rcases h with rfl | rfl | rfl | rfl | rfl | rfl | rfl | rfl | rfl
  · exact carries_int2 n
  · exact carries_int4 n
  · exact carries_int8 n
  · exact carries_oid n
  · exact carries_numeric n
  all_goals exact carries_text rfl n

/-- An integer is written exactly if the type has it, and what was written is read as this integer
from every record. To a type of signed words the numeral of the integer goes in the same way. -/
theorem integer_reread (hs : s ∈ integral) (n : Int64) :
    ((∃ raw, (Value.int n).encode (.scalar s) = .ok (some raw)) ↔ s.HasInteger n.toInt) ∧
      (∀ raw, (Value.int n).encode (.scalar s) = .ok (some raw) →
        ∃ v, decode? (.scalar s) raw = some v ∧
          ∀ (r : Record) (column : String), r.get? column = some v →
            r.read column Value.Reader.int64 = .ok n) ∧
      (s ∈ [int2, int4, int8] →
        Agree ((Value.text (Text.integer n.toInt)).encode (.scalar s))
          ((Value.int n).encode (.scalar s))) := by
  refine ⟨?_, fun raw hraw => ?_, fun hword => ?_⟩
  · rcases carries_of_mem hs n with ⟨hhas, raw, hencode, -⟩ | ⟨hnot, e, hencode⟩
    · exact iff_of_true ⟨raw, by rw [Value.encode, hencode]; rfl⟩ hhas
    · refine iff_of_false ?_ hnot
      rintro ⟨raw, hraw⟩
      rw [Value.encode, hencode] at hraw
      cases hraw
  · rcases carries_of_mem hs n with ⟨-, raw', hencode, v, hv, hread⟩ | ⟨-, e, hencode⟩
    · rw [Value.encode, hencode] at hraw
      cases hraw
      refine ⟨v, hv, fun r column hcolumn => ?_⟩
      simp only [Record.read, hcolumn, hread]
      rfl
    · rw [Value.encode, hencode] at hraw
      cases hraw
  · simp only [List.mem_cons, List.not_mem_nil, or_false] at hword
    rcases hword with rfl | rfl | rfl
    · exact agree_encodeNumeral 2 n
    · exact agree_encodeNumeral 4 n
    · rw [Value.encode, Value.encode, encodeInt_int8]
      exact agree_encodeNumeral 8 n

/-- The least integer of 64 bits has five groups as a decimal and no room in 32 bits. -/
theorem least_reread :
    numeric ∈ integral ∧ int4 ∈ integral ∧
      (∃ raw v, (Value.int Int64.minValue).encode (.scalar .numeric) = .ok (some raw) ∧
        decode? (.scalar .numeric) raw = some v ∧
        (Record.empty.push "balance" v).read "balance" Value.Reader.int64 = .ok Int64.minValue) ∧
      ¬ ∃ raw, (Value.int Int64.minValue).encode (.scalar .int4) = .ok (some raw) := by
  have hnumeric : numeric ∈ integral := by decide
  have hint4 : int4 ∈ integral := by decide
  obtain ⟨hwritten, hread, -⟩ := integer_reread hnumeric Int64.minValue
  obtain ⟨raw, hraw⟩ := hwritten.mpr trivial
  obtain ⟨v, hv, hrecord⟩ := hread raw hraw
  refine ⟨hnumeric, hint4, ⟨raw, v, hraw, hv, hrecord _ _ ?_⟩, ?_⟩
  · simp [Record.get?, Record.push, Record.empty]
  · rw [(integer_reread hint4 Int64.minValue).1]
    rintro ⟨hlow, -⟩
    exact absurd hlow (by decide)

end Scalar

end QueryLoom
