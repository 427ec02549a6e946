import Mathlib.Order.Bounds.Defs
import QueryLoom.Proofs.Chain.Outcome

/-!
# The search for a bind key

A key on trial that is bound is given one more letter, and the first that is free is taken. No
number of rounds is set beforehand: the search ends because all its trials differ in length, so no
more of them than there are keys can be bound. The letters run through the alphabet over and over,
so a key is told by how many it was given, and it is given as few as can be.
-/

set_option autoImplicit false

namespace QueryLoom

namespace BindKey

def letters (seed : String) : List Char :=
  if seed.toList.any Text.isAsciiLetter then seed.toList.filter Text.isAsciiLetter else ['p']

def alphabet : List Char := "abcdefghijklmnopqrstuvwxyz".toList

def repeated (n : Nat) : List Char := ((List.replicate n alphabet).flatten).take n

def candidate (seed : String) (n : Nat) : String := String.ofList (letters seed ++ repeated n)

structure Trial where
  key : String
  given : Nat

/-- One round: a bound key is given the letter that comes next, a free key is left. -/
def Trial.next? (b : Bindings) (t : Trial) : Option Trial :=
  if t.key ∈ b.keys then some ⟨t.key.push (suffixLetter t.given), t.given + 1⟩ else none

inductive Trial.Ends (b : Bindings) : Trial → Nat → Trial → Prop
  | free {t : Trial} (h : t.next? b = none) : Ends b t 0 t
  | bound {t u v : Trial} {n : Nat} (h : t.next? b = some u) (hu : Ends b u n v) :
    Ends b t (n + 1) v

variable {b : Bindings} {seed : String}

/-! ## Candidates -/

theorem toList_base (seed : String) : (base seed).toList = letters seed := by
  have hsome : (lettersOnly seed).isEmpty = !seed.toList.any Text.isAsciiLetter := by
    rw [Bool.eq_iff_iff, String.isEmpty_iff, ← String.toList_eq_nil_iff]
    simp [lettersOnly, Text.isAsciiLetter]
  rw [base, letters, hsome]
  cases seed.toList.any Text.isAsciiLetter with
  | true => exact String.toList_ofList
  | false => simp

theorem flatten_replicate_alphabet (n : Nat) :
    (List.replicate n alphabet).flatten = (List.range (26 * n)).map suffixLetter := by
  have halphabet : alphabet = (List.range 26).map suffixLetter := by decide
  induction n with
  | zero => rfl
  | succ n ih =>
    rw [List.replicate_succ', List.flatten_append, ih, Nat.mul_succ, List.range_add,
      List.map_append, List.flatten_singleton, halphabet, List.map_map]
    congr 1
    -- the letters come back after each alphabet
    refine List.map_congr_left fun i _ => ?_
    simp [suffixLetter]

theorem toList_suffix (n : Nat) : (suffix n).toList = repeated n := by
  rw [repeated, flatten_replicate_alphabet, ← List.map_take, List.take_range,
    Nat.min_eq_left (by omega), suffix, String.toList_ofList]

theorem candidate_eq (seed : String) (n : Nat) : candidate seed n = base seed ++ suffix n := by
  rw [← String.toList_inj, candidate, String.toList_ofList, String.toList_append, toList_base,
    toList_suffix]

theorem candidate_push (seed : String) (n : Nat) :
    (candidate seed n).push (suffixLetter n) = candidate seed (n + 1) := by
  rw [candidate_eq, candidate_eq, ← String.toList_inj]
  simp [suffix, List.range_succ]

/-! ## Rounds -/

theorem next?_of_mem {n : Nat} (h : candidate seed n ∈ b.keys) :
    Trial.next? b ⟨candidate seed n, n⟩ = some ⟨candidate seed (n + 1), n + 1⟩ := by
  rw [Trial.next?, if_pos h, candidate_push]

theorem next?_of_not_mem {n : Nat} (h : candidate seed n ∉ b.keys) :
    Trial.next? b ⟨candidate seed n, n⟩ = none := if_neg h

/-- A trial is followed by one trial, so its rounds end in one way at most. -/
theorem Trial.Ends.unique {t u u' : Trial} {n n' : Nat} (h : Ends b t n u) (h' : Ends b t n' u') :
    n = n' ∧ u = u' := by
  induction h generalizing n' with
  | free hnone =>
    cases h' with
    | free => exact ⟨rfl, rfl⟩
    | bound hsome => simp [hnone] at hsome
  | bound hsome _ ih =>
    cases h' with
    | free hnone => simp [hsome] at hnone
    | bound hsome' hu' =>
      obtain rfl := Option.some.inj (hsome.symm.trans hsome')
      obtain ⟨rfl, rfl⟩ := ih hu'
      exact ⟨rfl, rfl⟩

/-- From a candidate on there is one round for each bound one, up to the first that is free. -/
theorem ends_at_free {n k : Nat} (hfree : candidate seed (n + k) ∉ b.keys)
    (hbound : ∀ j < k, candidate seed (n + j) ∈ b.keys) :
    Trial.Ends b ⟨candidate seed n, n⟩ k ⟨candidate seed (n + k), n + k⟩ := by
  induction k generalizing n with
  | zero => exact .free (next?_of_not_mem hfree)
  | succ k ih =>
    have hrest := ih (n := n + 1) (by rwa [Nat.add_right_comm]) fun j hj => by
      rw [Nat.add_right_comm]
      exact hbound (j + 1) (by omega)
    rw [Nat.add_right_comm] at hrest
    exact .bound (next?_of_mem (hbound 0 (by omega))) hrest

/-- The first free candidate comes after no more bound ones than there are keys. -/
theorem exists_least (b : Bindings) (seed : String) : ∃ k ≤ b.size,
    fresh b seed = candidate seed k ∧ IsLeast {j | candidate seed j ∉ b.keys} k := by
  obtain ⟨k, hk, hfresh, hfree, hbound⟩ := fresh_spec b seed
  rw [← candidate_eq] at hfresh hfree
  have hnot : candidate seed k ∉ b.keys := by
    rw [← Bindings.contains_iff, hfree]
    decide
  refine ⟨k, hk, hfresh, hnot, fun j hj => ?_⟩
  by_contra hlt
  have hmem := hbound j (by omega)
  rw [← candidate_eq, Bindings.contains_iff] at hmem
  exact hj hmem

end BindKey

namespace Chain

open BindKey

/-- A value is bound under the shortest free candidate for its seed, behind all that was bound
before, and nothing else changes. The search for it comes to it after as many rounds as it is given
letters, of which there are at most as many as there are keys, and cannot end otherwise. -/
theorem bind_shortest (c : Chain) (seed : String) (v : Value) : ∃ k ≤ c.bindings.size,
    IsLeast {j | candidate seed j ∉ c.bindings.keys} k ∧
    (∀ n t, Trial.Ends c.bindings ⟨candidate seed 0, 0⟩ n t ↔
      n = k ∧ t = ⟨candidate seed k, k⟩) ∧
    (bind seed v).outcome c = (.ok (candidate seed k),
      { c with bindings := ⟨c.bindings.entries ++ [(candidate seed k, v)]⟩ }) := by
  obtain ⟨k, hk, hfresh, hleast⟩ := exists_least c.bindings seed
  have hends : Trial.Ends c.bindings ⟨candidate seed 0, 0⟩ k ⟨candidate seed k, k⟩ := by
    have hfree : candidate seed k ∉ c.bindings.keys := hleast.1
    have hbound : ∀ j < k, candidate seed (0 + j) ∈ c.bindings.keys := by
      intro j hj
      rw [Nat.zero_add]
      by_contra hj'
      exact absurd (hleast.2 hj') (by omega)
    simpa only [Nat.zero_add] using ends_at_free (n := 0) (by rwa [Nat.zero_add]) hbound
  refine ⟨k, hk, hleast, fun n t => ⟨fun h => h.unique hends, ?_⟩, ?_⟩
  · rintro ⟨rfl, rfl⟩
    exact hends
  · rw [bind_outcome, hfresh]
    rfl

-- A key that was given a letter before stands in the way of a later one.
example : (bind "user_id" .null).outcome
      { bindings := ⟨[("userida", .int 1), ("userid", .int 2)]⟩ } =
    (.ok "useridab",
      { bindings := ⟨[("userida", .int 1), ("userid", .int 2), ("useridab", .null)]⟩ }) := by
  rfl

end Chain

end QueryLoom
