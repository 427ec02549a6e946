import Mathlib.Data.List.Induction
import QueryLoom.Proofs.Bindings

/-!
# The order of bindings

Whatever a map was made by, no key is bound in it twice, and its keys stand in the order in which
they came first. Bound over another map it leaves that one's keys in their places and has its own
new ones behind them, so to bind maps over one another is associative, and to do it again changes
nothing.
-/

set_option autoImplicit false

namespace QueryLoom

theorem eraseDups_concat {α : Type} [DecidableEq α] (as : List α) (b : α) :
    (as ++ [b]).eraseDups = if b ∈ as then as.eraseDups else as.eraseDups ++ [b] := by
  rw [List.eraseDups_append]
  by_cases h : b ∈ as <;> simp [List.removeAll, List.eraseDups_cons, h]

namespace Bindings

inductive Built : Bindings → Prop
  | empty : Built empty
  | insert {b : Bindings} (h : Built b) (key : String) (value : Value) : Built (b.insert key value)
  | extend {a b : Bindings} (ha : Built a) (hb : Built b) : Built (a.extend b)
  | ofList (pairs : List (String × Value)) : Built (ofList pairs)

variable {a b c : Bindings}

/-! ## One insertion -/

theorem keys_insert (b : Bindings) (key : String) (value : Value) :
    (b.insert key value).keys = if key ∈ b.keys then b.keys else b.keys ++ [key] :=
  keys_put key value b.entries

theorem nodup_insert (h : b.keys.Nodup) (key : String) (value : Value) :
    (b.insert key value).keys.Nodup := nodup_put h key value

/-- A key that is bound again keeps its place. -/
theorem idxOf_insert {key : String} (h : key ∈ b.keys) (other : String) (value : Value) :
    (b.insert other value).keys.idxOf key = b.keys.idxOf key := by
  rw [keys_insert]
  split
  · rfl
  · rw [List.idxOf_append, if_pos h]

/-- Of entries that are bound one after the other, each key has the place where it came first. -/
theorem keys_ofList (pairs : List (String × Value)) :
    (ofList pairs).keys = (pairs.map Prod.fst).eraseDups := by
  induction pairs using List.reverseRecOn with
  | nil => rfl
  | append_singleton pairs e ih =>
    have hlast : ofList (pairs ++ [e]) = (ofList pairs).insert e.1 e.2 :=
      extend_append empty pairs [e]
    rw [hlast, keys_insert, ih, List.map_append, List.map_singleton, eraseDups_concat]
    simp only [List.mem_eraseDups]

/-! ## One map over another -/

/-- The entries come in one after the other, and each new key behind all keys before it. -/
theorem keys_extend_eq (a : Bindings) (hb : b.keys.Nodup) :
    (a.extend b).keys = a.keys ++ b.keys.filter fun key => key ∉ a.keys := by
  obtain ⟨entries⟩ := b
  induction entries generalizing a with
  | nil => simp [extend, keys]
  | cons e entries ih =>
    obtain ⟨hnew, hrest⟩ := List.nodup_cons.mp hb
    have hlater : ∀ key ∈ (⟨entries⟩ : Bindings).keys, key ≠ e.1 := by
      rintro key hkey rfl
      exact hnew hkey
    have hhead : (⟨e :: entries⟩ : Bindings).keys = e.1 :: (⟨entries⟩ : Bindings).keys := rfl
    rw [extend_cons, ih (a.insert e.1 e.2) hrest, keys_insert, hhead]
    by_cases he : e.1 ∈ a.keys
    · rw [if_pos he, List.filter_cons_of_neg (by simpa using he)]
    · have hsame : (⟨entries⟩ : Bindings).keys.filter (fun key => key ∉ a.keys ++ [e.1]) =
          (⟨entries⟩ : Bindings).keys.filter fun key => key ∉ a.keys :=
        List.filter_congr fun key hkey => by simp [hlater key hkey]
      rw [if_neg he, List.filter_cons_of_pos (by simpa using he), hsame, List.append_assoc]
      rfl

theorem nodup_extend (ha : a.keys.Nodup) (b : Bindings) : (a.extend b).keys.Nodup := by
  obtain ⟨entries⟩ := b
  induction entries generalizing a with
  | nil => exact ha
  | cons e entries ih => exact ih (nodup_insert ha e.1 e.2)

theorem Built.nodup (h : Built b) : b.keys.Nodup := by
  induction h with
  | empty => exact List.nodup_nil
  | insert _ key value ih => exact nodup_insert ih key value
  | extend _ _ ih _ => exact nodup_extend ih _
  | ofList pairs => exact nodup_extend (a := Bindings.empty) List.nodup_nil ⟨pairs⟩

/-- A key of both maps has its value from the second one. -/
theorem get?_extend_eq (a : Bindings) (hb : b.keys.Nodup) (key : String) :
    (a.extend b).get? key = if key ∈ b.keys then b.get? key else a.get? key := by
  by_cases hkey : key ∈ b.keys
  · obtain ⟨e, he, rfl⟩ := List.mem_map.mp hkey
    rw [if_pos hkey, show b.get? e.1 = some e.2 from get?_of_mem hb he]
    exact get?_extend_of_mem a hb he
  · rw [if_neg hkey]
    exact get?_extend_of_not_mem a hkey

theorem mem_keys_extend (a : Bindings) (hb : b.keys.Nodup) {key : String} :
    key ∈ (a.extend b).keys ↔ key ∈ a.keys ∨ key ∈ b.keys := by
  rw [keys_extend_eq a hb, List.mem_append, List.mem_filter]
  by_cases hkey : key ∈ a.keys <;> simp [hkey]

theorem extend_assoc (ha : a.keys.Nodup) (hb : b.keys.Nodup) (hc : c.keys.Nodup) :
    (a.extend b).extend c = a.extend (b.extend c) := by
  have hbc : (b.extend c).keys.Nodup := nodup_extend hb c
  refine ext_of_nodup (nodup_extend (nodup_extend ha b) c) ?_ fun key _ => ?_
  · have hnew : ∀ key, key ∉ (a.extend b).keys ↔ key ∉ a.keys ∧ key ∉ b.keys := fun key => by
      rw [mem_keys_extend a hb, not_or]
    rw [keys_extend_eq _ hc, keys_extend_eq a hb, keys_extend_eq a hbc, keys_extend_eq b hc,
      List.filter_append, List.filter_filter, List.append_assoc]
    congr 2
    refine List.filter_congr fun key _ => ?_
    rw [← keys_extend_eq a hb]
    simp [hnew]
  · rw [get?_extend_eq _ hc, get?_extend_eq a hb, get?_extend_eq a hbc, get?_extend_eq b hc]
    simp only [mem_keys_extend b hc]
    by_cases hkey : key ∈ c.keys <;> simp [hkey]

theorem extend_self (ha : a.keys.Nodup) : a.extend a = a := by
  have hkeys : (a.extend a).keys = a.keys := keys_extend fun e he => List.mem_map_of_mem he
  refine ext_of_nodup (nodup_extend ha a) hkeys fun key _ => ?_
  rw [get?_extend_eq a ha, ite_self]

/-- A map that insertions and other maps have made binds no key twice. An insertion binds its key,
at the end if it is new, and changes nothing else. A second map brings its new keys in behind those
of the first, in its own order, and its values count where both have a key. Maps in a row are bound
in any grouping, and binding a map again changes nothing. -/
theorem Built.insertionOrdered (ha : Built a) :
    a.keys.Nodup ∧
      (∀ key value, (a.insert key value).get? key = some value ∧
        (∀ other, other ≠ key → (a.insert key value).get? other = a.get? other) ∧
        (a.insert key value).keys = (if key ∈ a.keys then a.keys else a.keys ++ [key]) ∧
        ∀ other ∈ a.keys, (a.insert key value).keys.idxOf other = a.keys.idxOf other) ∧
      (∀ b, Built b →
        (∀ key, (a.extend b).get? key = if key ∈ b.keys then b.get? key else a.get? key) ∧
        (a.extend b).keys = (a.keys ++ b.keys.filter fun key => key ∉ a.keys) ∧
        (a.extend b).extend b = a.extend b ∧
        ∀ c, Built c → (a.extend b).extend c = a.extend (b.extend c)) ∧
      a.extend a = a := by
  refine ⟨ha.nodup, fun key value => ⟨?_, fun other hother => ?_, keys_insert a key value, ?_⟩,
    fun b hb => ⟨?_, ?_, ?_, ?_⟩, extend_self ha.nodup⟩
  · rw [get?_insert, if_pos rfl]
  · rw [get?_insert, if_neg hother]
  · exact fun other hother => idxOf_insert hother key value
  · exact get?_extend_eq a hb.nodup
  · exact keys_extend_eq a hb.nodup
  · rw [extend_assoc ha.nodup hb.nodup hb.nodup, extend_self hb.nodup]
  · exact fun c hc => extend_assoc ha.nodup hb.nodup hc.nodup

/-- A key that is bound twice in the list keeps its first place, before and after a second map. -/
theorem slug_insertionOrdered :
    let a := ofList [("name", .text "a"), ("slug", .text "b"), ("name", .text "c")]
    let b := ofList [("age", .int 7), ("slug", .null)]
    Built a ∧ Built b ∧ a.keys = ["name", "slug"] ∧
      (a.extend b).keys = ["name", "slug", "age"] ∧ (a.extend b).get? "slug" = some .null ∧
      (a.extend b).get? "name" = some (.text "c") ∧ (a.extend b).extend b = a.extend b := by
  intro a b
  have ha : Built a := .ofList _
  have hb : Built b := .ofList _
  obtain ⟨-, -, hmerge, -⟩ := ha.insertionOrdered
  obtain ⟨hget, hkeys, htwice, -⟩ := hmerge b hb
  refine ⟨ha, hb, rfl, ?_, ?_, ?_, htwice⟩
  · rw [hkeys]
    rfl
  · rw [hget]
    rfl
  · rw [hget]
    rfl

end Bindings

end QueryLoom
