import QueryLoom.Bindings

/-!
# Bindings as a map

Look-up after an insertion, and after the entries of a second map were bound over a first one.
-/

set_option autoImplicit false

namespace QueryLoom.Bindings

theorem contains_iff (b : Bindings) (key : String) : b.contains key = true ↔ key ∈ b.keys := by
  simp [contains, keys]

theorem lookup_cons_eq (e : String × Value) (entries : List (String × Value)) (j : String) :
    (e :: entries).lookup j = if j = e.1 then some e.2 else entries.lookup j := by
  rw [List.lookup_cons]
  by_cases h : j = e.1
  · simp [h]
  · rw [if_neg h, beq_eq_false_iff_ne.mpr h]

theorem put_eq_append {key : String} {entries : List (String × Value)} (value : Value)
    (h : key ∉ entries.map Prod.fst) : put key value entries = entries ++ [(key, value)] := by
  induction entries with
  | nil => rfl
  | cons e entries ih =>
    simp only [List.map_cons, List.mem_cons, not_or] at h
    rw [put, if_neg (Ne.symm h.1), ih h.2]
    rfl

/-- A key that is not bound yet is bound at the end. -/
theorem insert_fresh {b : Bindings} {key : String} (value : Value) (h : b.contains key = false) :
    b.insert key value = ⟨b.entries ++ [(key, value)]⟩ := by
  have hk : key ∉ b.keys := by rw [← contains_iff, h]; simp
  rw [insert, put_eq_append value hk]

theorem keys_put (key : String) (value : Value) (entries : List (String × Value)) :
    (put key value entries).map Prod.fst =
      if key ∈ entries.map Prod.fst then entries.map Prod.fst
      else entries.map Prod.fst ++ [key] := by
  by_cases h : key ∈ entries.map Prod.fst
  · rw [if_pos h]
    induction entries with
    | nil => simp at h
    | cons e entries ih =>
      by_cases he : e.1 = key
      · simp [put, he]
      · have hrest : key ∈ entries.map Prod.fst := by
          simpa [Ne.symm he] using h
        simp [put, he, ih hrest]
  · rw [if_neg h, put_eq_append value h]
    simp

theorem nodup_put {entries : List (String × Value)} (h : (entries.map Prod.fst).Nodup)
    (key : String) (value : Value) : ((put key value entries).map Prod.fst).Nodup := by
  rw [keys_put]
  split
  · exact h
  · rename_i hnew
    exact List.nodup_append.mpr ⟨h, by simp, fun j hj k hk =>
      fun heq => hnew (List.mem_singleton.mp hk ▸ heq ▸ hj)⟩

/-- Nothing is bound but what was, and the new entry. -/
theorem mem_put {key : String} {value : Value} {entries : List (String × Value)}
    {e : String × Value} (h : e ∈ put key value entries) : e ∈ entries ∨ e = (key, value) := by
  induction entries with
  | nil => exact Or.inr (List.mem_singleton.mp h)
  | cons d entries ih =>
    rw [put] at h
    split at h
    · rename_i hd
      rcases List.mem_cons.mp h with rfl | h
      · exact Or.inr (by rw [hd])
      · exact Or.inl (List.mem_cons_of_mem d h)
    · rcases List.mem_cons.mp h with rfl | h
      · exact Or.inl List.mem_cons_self
      · exact (ih h).imp_left (List.mem_cons_of_mem d)

theorem lookup_put (key j : String) (value : Value) (entries : List (String × Value)) :
    (put key value entries).lookup j = if j = key then some value else entries.lookup j := by
  induction entries with
  | nil => simp [put, lookup_cons_eq]
  | cons e entries ih =>
    by_cases he : e.1 = key
    · rw [put, if_pos he, lookup_cons_eq, lookup_cons_eq, he]
      by_cases h : j = key <;> simp [h]
    · rw [put, if_neg he, lookup_cons_eq, lookup_cons_eq, ih]
      by_cases h : j = e.1 <;> simp [h, he]

theorem get?_insert (b : Bindings) (key j : String) (value : Value) :
    (b.insert key value).get? j = if j = key then some value else b.get? j :=
  lookup_put key j value b.entries

theorem extend_cons (b : Bindings) (e : String × Value) (entries : List (String × Value)) :
    b.extend ⟨e :: entries⟩ = (b.insert e.1 e.2).extend ⟨entries⟩ := rfl

/-- Keys that the second map does not have keep their values. -/
theorem get?_extend_of_not_mem (b : Bindings) {key : String} {entries : List (String × Value)}
    (h : key ∉ entries.map Prod.fst) : (b.extend ⟨entries⟩).get? key = b.get? key := by
  induction entries generalizing b with
  | nil => rfl
  | cons e entries ih =>
    simp only [List.map_cons, List.mem_cons, not_or] at h
    rw [extend_cons, ih _ h.2, get?_insert, if_neg h.1]

theorem get?_extend_of_mem (b : Bindings) {entries : List (String × Value)}
    (hn : (entries.map Prod.fst).Nodup) {e : String × Value} (he : e ∈ entries) :
    (b.extend ⟨entries⟩).get? e.1 = some e.2 := by
  induction entries generalizing b with
  | nil => simp at he
  | cons f entries ih =>
    rw [List.map_cons, List.nodup_cons] at hn
    rw [extend_cons]
    rcases List.mem_cons.mp he with rfl | he
    · rw [get?_extend_of_not_mem _ hn.1, get?_insert, if_pos rfl]
    · exact ih _ hn.2 he

/-- The first entry with a key answers. -/
theorem get?_append (entries more : List (String × Value)) (key : String) :
    (⟨entries ++ more⟩ : Bindings).get? key =
      ((⟨entries⟩ : Bindings).get? key).or ((⟨more⟩ : Bindings).get? key) :=
  List.lookup_append

theorem get?_eq_none {entries : List (String × Value)} {key : String}
    (h : key ∉ entries.map Prod.fst) : (⟨entries⟩ : Bindings).get? key = none := by
  induction entries with
  | nil => rfl
  | cons e entries ih =>
    simp only [List.map_cons, List.mem_cons, not_or] at h
    simpa [get?, lookup_cons_eq, h.1] using ih h.2

theorem get?_of_mem {entries : List (String × Value)} (h : (entries.map Prod.fst).Nodup)
    {e : String × Value} (he : e ∈ entries) : (⟨entries⟩ : Bindings).get? e.1 = some e.2 := by
  induction entries with
  | nil => simp at he
  | cons f entries ih =>
    rw [List.map_cons, List.nodup_cons] at h
    rcases List.mem_cons.mp he with rfl | he
    · simp [get?, lookup_cons_eq]
    · have hne : e.1 ≠ f.1 := fun hf => h.1 (hf ▸ List.mem_map_of_mem he)
      simpa [get?, lookup_cons_eq, hne] using ih h.2 he

/-- Distinct keys look their own values up. -/
theorem map_get?_keys {entries : List (String × Value)} (h : (entries.map Prod.fst).Nodup) :
    (entries.map Prod.fst).map (⟨entries⟩ : Bindings).get? = (entries.map Prod.snd).map some := by
  rw [List.map_map, List.map_map]
  exact List.map_congr_left fun e he => get?_of_mem h he

/-- Maps with the same distinct keys in the same order are equal if they look up alike. -/
theorem ext_of_nodup {a b : Bindings} (hn : a.keys.Nodup) (hkeys : a.keys = b.keys)
    (hget : ∀ key ∈ a.keys, a.get? key = b.get? key) : a = b := by
  have hb : (b.entries.map Prod.fst).Nodup := by
    change b.keys.Nodup
    exact hkeys ▸ hn
  have hvalues : a.entries.map Prod.snd = b.entries.map Prod.snd := by
    rw [← List.map_inj_right fun _ _ => Option.some.inj, ← map_get?_keys hn, ← map_get?_keys hb]
    exact (List.map_congr_left hget).trans (congrArg (List.map b.get?) hkeys)
  have hentries : a.entries = b.entries := calc
    a.entries = a.keys.zip (a.entries.map Prod.snd) := List.zip_of_prod rfl rfl
    _ = b.keys.zip (b.entries.map Prod.snd) := by rw [hkeys, hvalues]
    _ = b.entries := (List.zip_of_prod rfl rfl).symm
  cases a
  cases b
  exact congrArg Bindings.mk hentries

theorem extend_append (b : Bindings) (es fs : List (String × Value)) :
    b.extend ⟨es ++ fs⟩ = (b.extend ⟨es⟩).extend ⟨fs⟩ := List.foldl_append

/-- Of several entries with a key the last one counts. -/
theorem get?_extend (b : Bindings) (es : List (String × Value)) (key : String) :
    (b.extend ⟨es⟩).get? key = (es.reverse.lookup key).or (b.get? key) := by
  induction es generalizing b with
  | nil => rfl
  | cons e es ih =>
    rw [extend_cons, ih, get?_insert, List.reverse_cons, List.lookup_append, Option.or_assoc,
      lookup_cons_eq]
    by_cases h : key = e.1 <;> simp [h]

theorem keys_extend {b : Bindings} {es : List (String × Value)}
    (h : ∀ e ∈ es, e.1 ∈ b.keys) : (b.extend ⟨es⟩).keys = b.keys := by
  induction es generalizing b with
  | nil => rfl
  | cons e es ih =>
    have hmem : e.1 ∈ b.entries.map Prod.fst := h e List.mem_cons_self
    have hkeys : (b.insert e.1 e.2).keys = b.keys := by
      rw [keys, insert, keys_put, if_pos hmem, keys]
    rw [extend_cons, ih fun f hf => hkeys ▸ h f (List.mem_cons_of_mem _ hf), hkeys]

/-- Entries change nothing where each key has the last of its values already. -/
theorem extend_eq_self_iff {b : Bindings} (hn : b.keys.Nodup) (es : List (String × Value)) :
    b.extend ⟨es⟩ = b ↔ ∀ key ∈ es.map Prod.fst, b.get? key = es.reverse.lookup key := by
  have hbound : ∀ key ∈ es.map Prod.fst, ∃ v, es.reverse.lookup key = some v := by
    intro key hkey
    rw [← Option.isSome_iff_exists, List.lookup_isSome_iff]
    obtain ⟨e, he, rfl⟩ := List.mem_map.mp hkey
    exact ⟨e, List.mem_reverse.mpr he, by simp⟩
  constructor
  · intro heq key hkey
    obtain ⟨v, hv⟩ := hbound key hkey
    have hget := get?_extend b es key
    rwa [heq, hv, Option.some_or, ← hv] at hget
  · intro hall
    have hmem : ∀ e ∈ es, e.1 ∈ b.keys := by
      intro e he
      obtain ⟨v, hv⟩ := hbound e.1 (List.mem_map_of_mem he)
      rw [← hall e.1 (List.mem_map_of_mem he)] at hv
      apply Classical.byContradiction
      intro hnot
      rw [show b.get? e.1 = none from get?_eq_none hnot] at hv
      cases hv
    have hkeys := keys_extend hmem
    refine ext_of_nodup (hkeys ▸ hn) hkeys fun key _ => ?_
    rw [get?_extend]
    by_cases hkey : key ∈ es.map Prod.fst
    · rw [← hall key hkey, Option.or_self]
    · rw [List.lookup_eq_none_iff.mpr fun e he => ?_, Option.none_or]
      have hne : key ≠ e.1 := by
        rintro rfl
        exact hkey (List.mem_map_of_mem (List.mem_reverse.mp he))
      simp [hne]

end QueryLoom.Bindings
