import QueryLoom.Proofs.Wire.Bytes
import QueryLoom.Wire.Numeric

/-!
# Whole numbers as decimals on the wire

What is written of a decimal is read back word by word. The groups of a whole number are its digits
to the base ten thousand, none of them is lost at the end, and so the number comes back as it was,
with its sign.
-/

set_option autoImplicit false

namespace QueryLoom

namespace Wire.Numeric

structure Fits (n : Numeric) : Prop where
  count : n.groups.length < 0x10000
  weight : -0x8000 ≤ n.weight ∧ n.weight < 0x8000
  scale : n.scale < 0x10000
  groups : ∀ g ∈ n.groups, g < 0x10000

theorem reader_run {n : Numeric} (h : n.Fits) (rest : List UInt8) :
    reader.run (n.bytes ++ rest) = some (n, rest) := by
  have hword : Nat.pow 256 2 = 0x10000 := rfl
  have hsign : signWord n.negative < 0x10000 := by cases n.negative <;> decide
  have hgroups : (Reader.times (Reader.unsigned 2) n.groups.length).run
      (n.groups.flatMap (word 2) ++ rest) = some (n.groups, rest) :=
    Reader.times_run (fun g hg => Reader.unsigned_run (hword ▸ h.groups g hg)) rest
  have hread : ofSignWord? (signWord n.negative) = some n.negative := by cases n.negative <;> rfl
  have hweight : ∀ more, (Reader.signed 2).run (signedWord 2 n.weight ++ more) =
      some (n.weight, more) := by
    obtain ⟨hlow, hhigh⟩ := h.weight
    exact fun more => Reader.signed_run (by omega) (by omega) more
  simp only [reader, bytes, List.append_assoc, StateT.run_bind,
    Reader.unsigned_run (hword ▸ h.count), Option.bind_eq_bind, Option.bind_some,
    hweight, Reader.unsigned_run (hword ▸ hsign), Reader.unsigned_run (hword ▸ h.scale),
    hgroups, hread]
  rfl

theorem ofBytes?_bytes {n : Numeric} (h : n.Fits) : ofBytes? n.bytes = some n := by
  have hrun := reader_run h []
  rw [List.append_nil] at hrun
  rw [ofBytes?, hrun, Option.map_some]

/-! ## Groups -/

theorem wholeOf_concat (groups : List Nat) (g : Nat) :
    wholeOf (groups ++ [g]) = groupBase * wholeOf groups + g := by
  rw [wholeOf, List.foldl_append]
  rfl

theorem wholeOf_groupsOf (n : Nat) : wholeOf (groupsOf n) = n := by
  fun_induction groupsOf n with
  | case1 => rfl
  | case2 n _ ih => rw [wholeOf_concat, ih, Nat.div_add_mod]

theorem groupsOf_lt (n : Nat) : ∀ g ∈ groupsOf n, g < groupBase := by
  fun_induction groupsOf n with
  | case1 => simp
  | case2 n _ ih =>
    intro g hg
    rcases List.mem_append.mp hg with hg | hg
    · exact ih g hg
    · rw [List.mem_singleton.mp hg]
      exact Nat.mod_lt n (by decide)

theorem length_groupsOf_le {n places : Nat} (h : n < Nat.pow groupBase places) :
    (groupsOf n).length ≤ places := by
  induction places generalizing n with
  | zero =>
    obtain rfl : n = 0 := Nat.lt_one_iff.mp h
    simp [groupsOf]
  | succ places ih =>
    rw [groupsOf]
    split
    · simp
    · have hpow : Nat.pow groupBase (places + 1) = Nat.pow groupBase places * groupBase := rfl
      rw [hpow, Nat.mul_comm] at h
      have hrest := ih (Nat.div_lt_of_lt_mul h)
      simp only [List.length_append, List.length_singleton]
      omega

/-! ## Whole numbers -/

theorem fit?_whole {n : Nat} (h : n < Decimal.limit) :
    (⟨n, 0⟩ : Decimal.Parts).fit? = some ⟨n, 0⟩ := by
  have hround : Floating.roundHalfEven n (Nat.pow 10 0) = n := by
    simp [Floating.roundHalfEven, Nat.mod_one]
  simp only [Decimal.Parts.fit?, Decimal.Parts.fitAfter?, hround, h, if_true]

/-- Zero has no group. -/
theorem ofDecimal_zero {d : Decimal} (h : d.coefficient = 0) : ofDecimal d = ⟨0, false, 0, []⟩ := by
  rw [ofDecimal, if_pos h]

theorem ofDecimal_whole {d : Decimal} (hscale : d.scale = 0) (h : d.coefficient ≠ 0) :
    ofDecimal d =
      ⟨(groupsOf d.coefficient).length - 1, d.negative, 0, groupsOf d.coefficient⟩ := by
  have hnone : fractionGroups d.scale = 0 := by rw [hscale]; rfl
  have hgroups : d.coefficient * Nat.pow 10 (4 * 0 - d.scale) = d.coefficient := by
    rw [Nat.mul_zero, Nat.zero_sub]
    exact Nat.mul_one _
  simp only [ofDecimal, if_neg h, hnone, hgroups, Nat.sub_zero, List.take_length,
    List.drop_length]
  simp [dropTrailingZeros, hscale]

/-- A whole number comes back as it was; zero comes back without a sign. -/
theorem toDecimal?_ofDecimal {d : Decimal} (hscale : d.scale = 0)
    (hsign : d.coefficient = 0 → d.negative = false) : (ofDecimal d).toDecimal? = some d := by
  obtain ⟨negative, n, scale, hn, hle⟩ := d
  simp only at hscale hsign
  subst hscale
  by_cases hzero : n = 0
  · rw [ofDecimal_zero hzero]
    subst hzero
    rw [hsign rfl]
    rfl
  · have hparts : (⟨n, 0⟩ : Decimal.Parts).rescale 0 = ⟨n, 0⟩ := by
      simp [Decimal.Parts.rescale, hzero, Decimal.roundPlaces]
    have hplaces : ((groupsOf n).length - 1 + 1 : Int).toNat = (groupsOf n).length := by omega
    have hwhole : (ofDecimal ⟨negative, n, 0, hn, hle⟩).wholePart? = some ⟨n, 0⟩ := by
      have hroom : Nat.pow groupBase 0 < Decimal.limit := by decide
      rw [ofDecimal_whole rfl hzero]
      simp only [wholePart?, hplaces, Nat.sub_self, hroom, if_true, List.take_length,
        wholeOf_groupsOf]
      rw [show n * Nat.pow groupBase 0 = n from Nat.mul_one n, fit?_whole hn]
    rw [toDecimal?, hwhole, ofDecimal_whole rfl hzero]
    simp only [hplaces, List.drop_length, addFractions?, Option.bind_eq_bind, Option.bind_some,
      hparts]
    rw [Decimal.ofParts?, dif_pos ⟨hn, hle⟩]

theorem fits_ofDecimal {d : Decimal} (hscale : d.scale = 0) : (ofDecimal d).Fits := by
  by_cases hzero : d.coefficient = 0
  · rw [ofDecimal_zero hzero]
    exact ⟨by decide, by decide, by decide, by simp⟩
  · have hcount : (groupsOf d.coefficient).length ≤ 8 :=
      length_groupsOf_le (Nat.lt_of_lt_of_le d.coefficient_lt (by decide))
    have hbase : groupBase < 0x10000 := by decide
    rw [ofDecimal_whole hscale hzero]
    exact ⟨by simp only; omega, by simp only; omega, Nat.zero_lt_succ _,
      fun g hg => Nat.lt_trans (groupsOf_lt d.coefficient g hg) hbase⟩

/-- The bytes of a whole number tell the number. -/
theorem decoded_whole {d : Decimal} (hscale : d.scale = 0)
    (hsign : d.coefficient = 0 → d.negative = false) :
    (ofBytes? (ofDecimal d).bytes).bind toDecimal? = some d := by
  rw [ofBytes?_bytes (fits_ofDecimal hscale), Option.bind_some, toDecimal?_ofDecimal hscale hsign]

end Wire.Numeric

end QueryLoom
