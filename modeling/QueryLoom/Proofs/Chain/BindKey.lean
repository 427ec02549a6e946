import QueryLoom.Chain.Verb
import QueryLoom.Proofs.Bindings
import QueryLoom.Proofs.Text.Span

/-!
# Fresh bind keys

A derived key is a non-empty word of ASCII letters, and no earlier value is bound under it. The
candidates for a seed differ in length, so a map with `n` keys cannot hold `n + 1` of them.
-/

set_option autoImplicit false

namespace QueryLoom.BindKey

def IsKey (k : String) : Prop := k.toList ≠ [] ∧ ∀ c ∈ k.toList, c.isAlpha = true

theorem base_isKey (seed : String) : IsKey (base seed) := by
  unfold base
  simp only
  split
  · exact ⟨by decide, by decide⟩
  · rename_i h
    refine ⟨fun hnil => h ?_, fun c hc => ?_⟩
    · simpa [String.isEmpty_iff, ← String.toList_eq_nil_iff] using hnil
    · simp only [lettersOnly, String.toList_ofList, List.mem_filter] at hc
      exact hc.2

theorem suffixLetter_isAlpha (n : Nat) : (suffixLetter n).isAlpha = true := by
  have h : ∀ i < 26, (Char.ofNat ('a'.toNat + i)).isAlpha = true := by decide
  exact h _ (Nat.mod_lt n (by decide))

theorem isKey_append_suffix {k : String} (h : IsKey k) (n : Nat) : IsKey (k ++ suffix n) := by
  refine ⟨by simp [h.1], fun c hc => ?_⟩
  simp only [suffix, String.toList_append, String.toList_ofList, List.mem_append,
    List.mem_map] at hc
  rcases hc with hc | ⟨i, -, rfl⟩
  · exact h.2 c hc
  · exact suffixLetter_isAlpha i

theorem suffix_injective (k : String) {m n : Nat} (h : k ++ suffix m = k ++ suffix n) :
    m = n := by
  have hlen := congrArg (fun s => s.toList.length) h
  simpa [suffix] using hlen

/-- The search ends at the first free candidate, or at the last one that it may try. -/
theorem freeFrom_spec (b : Bindings) (key : String) (n steps : Nat) :
    ∃ k, n ≤ k ∧ k ≤ n + steps ∧ freeFrom b key n steps = key ++ suffix k ∧
      (∀ j, n ≤ j → j < k → b.contains (key ++ suffix j) = true) ∧
      (k < n + steps → b.contains (key ++ suffix k) = false) := by
  induction steps generalizing n with
  | zero => exact ⟨n, Nat.le_refl n, Nat.le_refl n, rfl, by omega, by omega⟩
  | succ steps ih =>
    by_cases hn : b.contains (key ++ suffix n) = true
    · obtain ⟨k, hnk, hks, hk, htaken, hfree⟩ := ih (n + 1)
      refine ⟨k, by omega, by omega, by simp [freeFrom, hn, hk], fun j hnj hjk => ?_,
        fun h => hfree (by omega)⟩
      rcases Nat.eq_or_lt_of_le hnj with rfl | hlt
      · exact hn
      · exact htaken j hlt hjk
    · exact ⟨n, Nat.le_refl n, by omega, by simp [freeFrom, hn], by omega,
        fun _ => by simpa using hn⟩

/-- Not all of one candidate more than there are keys can be taken. -/
theorem exists_free (b : Bindings) (key : String) :
    ∃ j ≤ b.size, b.contains (key ++ suffix j) = false := by
  apply Classical.byContradiction
  intro hall
  have htaken : ∀ j ≤ b.size, key ++ suffix j ∈ b.keys := by
    intro j hj
    rw [← Bindings.contains_iff]
    exact (Bool.not_eq_false _).mp fun hfree => hall ⟨j, hj, hfree⟩
  have hnodup : ((List.range (b.size + 1)).map fun j => key ++ suffix j).Nodup :=
    List.Pairwise.map _ (fun i j hij h => hij (suffix_injective key h)) List.nodup_range
  have hsub : (List.range (b.size + 1)).map (fun j => key ++ suffix j) ⊆ b.keys := by
    intro s hs
    obtain ⟨j, hj, rfl⟩ := List.mem_map.mp hs
    exact htaken j (by simpa [Nat.lt_succ_iff] using hj)
  have hle := hnodup.length_le_of_subset hsub
  simp only [List.length_map, List.length_range, Bindings.keys, Bindings.size] at hle
  omega

/-- A derived key carries the fewest suffix letters with which it is free. -/
theorem fresh_spec (b : Bindings) (seed : String) :
    ∃ k ≤ b.size, fresh b seed = base seed ++ suffix k ∧
      b.contains (base seed ++ suffix k) = false ∧
      ∀ j < k, b.contains (base seed ++ suffix j) = true := by
  obtain ⟨k, -, hk, heq, htaken, hfree⟩ := freeFrom_spec b (base seed) 0 b.size
  refine ⟨k, by omega, heq, ?_, fun j hj => htaken j (Nat.zero_le j) hj⟩
  rcases Nat.eq_or_lt_of_le hk with hend | hlt
  · obtain ⟨j, hj, hjfree⟩ := exists_free b (base seed)
    rcases Nat.eq_or_lt_of_le hj with rfl | hjlt
    · rwa [hend, Nat.zero_add]
    · rw [htaken j (Nat.zero_le j) (by omega)] at hjfree
      exact absurd hjfree (by decide)
  · exact hfree hlt

theorem contains_fresh (b : Bindings) (seed : String) : b.contains (fresh b seed) = false := by
  obtain ⟨k, -, heq, hfree, -⟩ := fresh_spec b seed
  rw [heq, hfree]

theorem fresh_isKey (b : Bindings) (seed : String) : IsKey (fresh b seed) := by
  obtain ⟨k, -, heq, -⟩ := fresh_spec b seed
  rw [heq]
  exact isKey_append_suffix (base_isKey seed) k

end QueryLoom.BindKey
