import QueryLoom.Json.Basic
import QueryLoom.Proofs.Floating.Text

/-!
# The text of JSON tells where it ends

A scalar is written as a word without delimiters, a string ends at its first bare quote, and the
items of an array are kept apart by commas. A JSON text in front of a delimiter can therefore be
told from what follows it, and a scalar or a string from its text.
-/

set_option autoImplicit false

namespace QueryLoom

open Floating

theorem Text.integer_injective {m n : ℤ} (h : Text.integer m = Text.integer n) : m = n := by
  have hnatural : ∀ {a b : ℕ}, Text.natural a = Text.natural b → a = b := by
    intro a b hab
    rw [← Nat.ofDigitChars_ten_toDigits (n := a), ← Nat.ofDigitChars_ten_toDigits (n := b)]
    exact congrArg (Nat.ofDigitChars 10 · 0) (String.ofList_injective hab)
  have hminus : ∀ a b : ℕ, "-" ++ Text.natural a ≠ Text.natural b := by
    intro a b hab
    have hmem : '-' ∈ (Text.natural b).toList := by simp [← hab]
    rw [Text.natural, String.toList_ofList] at hmem
    exact absurd (digits_isDigit b '-' hmem) (by decide)
  unfold Text.integer at h
  split at h <;> split at h
  · have habs := hnatural (String.append_right_inj "-" |>.mp h)
    omega
  · exact absurd h (hminus _ _)
  · exact absurd h.symm (hminus _ _)
  · have habs := hnatural h
    omega

namespace Json

/-! ## Strings -/

def escaped : List Char := (List.range 32).map Char.ofNat ++ ['"', '\\']

theorem escape_of_not_mem {c : Char} (h : c ∉ escaped) : escape c = [c] := by
  have hlow : ¬ c.toNat < 32 := by
    intro hlt
    refine h (List.mem_append_left _ (List.mem_map.mpr ⟨c.toNat, by simpa using hlt, ?_⟩))
    exact Char.ofNat_toNat c
  have hmarks : ∀ d ∈ escaped, c ≠ d := fun d hd hcd => h (hcd ▸ hd)
  unfold escape
  split
  case h_8 => exact if_neg hlow
  all_goals exact absurd rfl (hmarks _ (by decide))

theorem escape_prefixFree : ∀ c ∈ escaped, ∀ d ∈ escaped, escape c <+: escape d → c = d := by
  decide +kernel

theorem escape_head (c : Char) : ∃ cs, escape c = (if c ∈ escaped then '\\' else c) :: cs := by
  have hall : ∀ c ∈ escaped, (escape c).head? = some '\\' := by decide +kernel
  by_cases hc : c ∈ escaped
  · rw [if_pos hc]
    exact List.head?_eq_some_iff.mp (hall c hc)
  · rw [if_neg hc]
    exact ⟨[], escape_of_not_mem hc⟩

theorem escape_append_inj {c d : Char} {xs ys : List Char}
    (h : escape c ++ xs = escape d ++ ys) : c = d ∧ xs = ys := by
  have hcd : c = d := by
    obtain ⟨cs, hcs⟩ := escape_head c
    obtain ⟨ds, hds⟩ := escape_head d
    have hhead : (if c ∈ escaped then '\\' else c) = if d ∈ escaped then '\\' else d := by
      rw [hcs, hds] at h
      exact (List.cons.inj h).1
    have hslash : '\\' ∈ escaped := by decide
    by_cases hc : c ∈ escaped <;> by_cases hd : d ∈ escaped <;>
      simp only [hc, hd, if_true, if_false] at hhead
    · rcases List.prefix_or_prefix_of_prefix (List.prefix_append (escape c) xs)
        (h ▸ List.prefix_append (escape d) ys) with hp | hp
      · exact escape_prefixFree c hc d hd hp
      · exact (escape_prefixFree d hd c hc hp).symm
    · exact absurd (hhead ▸ hslash) hd
    · exact absurd (hhead ▸ hslash) hc
    · exact hhead
  subst hcd
  exact ⟨rfl, List.append_cancel_left h⟩

theorem escape_ne_quote {c : Char} {xs rest : List Char} (h : escape c ++ xs = '"' :: rest) :
    False := by
  obtain ⟨cs, hcs⟩ := escape_head c
  rw [hcs] at h
  have hhead := (List.cons.inj h).1
  split at hhead
  · exact absurd hhead (by decide)
  · rename_i hc
    exact hc (hhead ▸ by decide)

theorem body_append_inj {cs ds rest rest' : List Char}
    (h : cs.flatMap escape ++ '"' :: rest = ds.flatMap escape ++ '"' :: rest') :
    cs = ds ∧ rest = rest' := by
  induction cs generalizing ds with
  | nil =>
    cases ds with
    | nil => exact ⟨rfl, (List.cons.inj h).2⟩
    | cons d ds =>
      rw [List.flatMap_cons, List.append_assoc] at h
      exact (escape_ne_quote h.symm).elim
  | cons c cs ih =>
    rw [List.flatMap_cons, List.append_assoc] at h
    cases ds with
    | nil => exact (escape_ne_quote h).elim
    | cons d ds =>
      rw [List.flatMap_cons, List.append_assoc] at h
      obtain ⟨rfl, hrest⟩ := escape_append_inj h
      obtain ⟨rfl, hrest'⟩ := ih hrest
      exact ⟨rfl, hrest'⟩

/-- A string ends at the first quote without a backslash. -/
theorem quote_append_inj {s t : String} {rest rest' : List Char}
    (h : quote s ++ rest = quote t ++ rest') : s = t ∧ rest = rest' := by
  have hbody : s.toList.flatMap escape ++ '"' :: rest =
      t.toList.flatMap escape ++ '"' :: rest' := by
    simpa [quote] using h
  obtain ⟨hs, hrest⟩ := body_append_inj hbody
  exact ⟨String.toList_inj.mp hs, hrest⟩

/-! ## Scalars -/

inductive IsScalar : Json → Prop
  | null : IsScalar .null
  | bool (b : Bool) : IsScalar (.bool b)
  | int (n : ℤ) : IsScalar (.int n)
  | float (x : Double) (h : x.isFinite = true) : IsScalar (.float x)

def isWordChar (c : Char) : Bool := isNumeric c || c.isLower

theorem int_numeric (n : ℤ) : ∀ c ∈ (Json.int n).chars, isNumeric c = true ∧
    isFractional c = false := by
  rw [chars]
  exact integer_numeric n

theorem float_numeric {x : Double} (h : x.isFinite = true) :
    (∀ c ∈ (Json.float x).chars, isNumeric c = true) ∧
      ∃ c ∈ (Json.float x).chars, isFractional c = true := by
  rw [chars]
  exact text_numeric h

def IsKeyword (j : Json) : Prop := j = .null ∨ ∃ b, j = .bool b

theorem keyword_chars {j : Json} (h : j.IsKeyword) :
    (∀ c ∈ j.chars, c.isLower = true) ∧ ∃ c ∈ j.chars, isNumeric c = false := by
  rcases h with rfl | ⟨b, rfl⟩
  · rw [chars]
    exact ⟨by decide, 'n', by decide, by decide⟩
  · cases b <;> rw [chars]
    · exact ⟨by decide, 'f', by decide, by decide⟩
    · exact ⟨by decide, 't', by decide, by decide⟩

theorem IsScalar.keyword_or_numeric {j : Json} (h : j.IsScalar) :
    j.IsKeyword ∨ ∀ c ∈ j.chars, isNumeric c = true := by
  cases h with
  | null => exact Or.inl (Or.inl rfl)
  | bool b => exact Or.inl (Or.inr ⟨b, rfl⟩)
  | int n => exact Or.inr fun c hc => (int_numeric n c hc).1
  | float x hx => exact Or.inr (float_numeric hx).1

theorem scalar_chars {j : Json} (h : j.IsScalar) : ∀ c ∈ j.chars, isWordChar c = true := by
  intro c hc
  rcases h.keyword_or_numeric with hj | hj
  · simp [isWordChar, (keyword_chars hj).1 c hc]
  · simp [isWordChar, hj c hc]

theorem integer_ne_nil (n : ℤ) : (Text.integer n).toList ≠ [] := by
  unfold Text.integer Text.natural
  split <;> simp [Nat.toDigits_ne_nil]

theorem scalar_ne_nil {j : Json} (h : j.IsScalar) : j.chars ≠ [] := by
  cases h with
  | null => rw [chars]; decide
  | bool b => cases b <;> rw [chars] <;> decide
  | int n => rw [chars]; exact integer_ne_nil n
  | float x hx =>
    obtain ⟨c, hc, -⟩ := (float_numeric hx).2
    exact List.ne_nil_of_mem hc

theorem keyword_injective {j k : Json} (hj : j.IsKeyword) (hk : k.IsKeyword)
    (h : j.chars = k.chars) : j = k := by
  rcases hj with rfl | ⟨_ | _, rfl⟩ <;> rcases hk with rfl | ⟨_ | _, rfl⟩ <;>
    simp only [chars] at h <;> first | rfl | exact absurd h (by decide)

theorem keyword_ne_numeric {j k : Json} (hj : j.IsKeyword)
    (hk : ∀ c ∈ k.chars, isNumeric c = true) : j.chars ≠ k.chars := by
  intro h
  obtain ⟨c, hc, hnot⟩ := (keyword_chars hj).2
  rw [hk c (h ▸ hc)] at hnot
  cases hnot

theorem int_ne_float {n : ℤ} {x : Double} (hx : x.isFinite = true) :
    (Json.int n).chars ≠ (Json.float x).chars := by
  intro h
  obtain ⟨c, hc, hf⟩ := (float_numeric hx).2
  rw [(int_numeric n c (h ▸ hc)).2] at hf
  cases hf

/-- The word of a scalar tells the scalar. -/
theorem scalar_injective {j k : Json} (hj : j.IsScalar) (hk : k.IsScalar)
    (h : j.chars = k.chars) : j = k := by
  rcases hj.keyword_or_numeric with hj' | hj' <;> rcases hk.keyword_or_numeric with hk' | hk'
  · exact keyword_injective hj' hk' h
  · exact absurd h (keyword_ne_numeric hj' hk')
  · exact absurd h.symm (keyword_ne_numeric hk' hj')
  · cases hj with
    | null => exact absurd rfl (keyword_ne_numeric (Or.inl rfl) hj')
    | bool b => exact absurd rfl (keyword_ne_numeric (Or.inr ⟨b, rfl⟩) hj')
    | int n =>
      cases hk with
      | null => exact absurd rfl (keyword_ne_numeric (Or.inl rfl) hk')
      | bool b => exact absurd rfl (keyword_ne_numeric (Or.inr ⟨b, rfl⟩) hk')
      | int m =>
        simp only [chars] at h
        rw [Text.integer_injective (String.toList_inj.mp h)]
      | float y hy => exact absurd h (int_ne_float hy)
    | float x hx =>
      cases hk with
      | null => exact absurd rfl (keyword_ne_numeric (Or.inl rfl) hk')
      | bool b => exact absurd rfl (keyword_ne_numeric (Or.inr ⟨b, rfl⟩) hk')
      | int m => exact absurd h.symm (int_ne_float hx)
      | float y hy =>
        simp only [chars] at h
        rw [Double.text_injective hx hy (String.toList_inj.mp h)]

/-- A word in front of a delimiter can be told from what follows. -/
theorem scalar_append_inj {j k : Json} {rest rest' : List Char} (hj : j.IsScalar)
    (hk : k.IsScalar) (hr : Text.Stops isWordChar rest) (hr' : Text.Stops isWordChar rest')
    (h : j.chars ++ rest = k.chars ++ rest') : j = k ∧ rest = rest' := by
  obtain ⟨hchars, hrest⟩ :=
    Text.append_inj_of_stops (scalar_chars hj) (scalar_chars hk) hr hr' h
  exact ⟨scalar_injective hj hk hchars, hrest⟩

theorem scalar_append_ne {j : Json} (hj : j.IsScalar) {c : Char} (hc : isWordChar c = false)
    (rest cs : List Char) : j.chars ++ rest ≠ c :: cs := by
  intro h
  obtain ⟨d, ds, hd⟩ := List.exists_cons_of_ne_nil (scalar_ne_nil hj)
  rw [hd] at h
  have hword := scalar_chars hj d (by simp [hd])
  rw [(List.cons.inj h).1, hc] at hword
  cases hword

/-! ## Arrays -/

theorem itemChars_cons (j : Json) (js : List Json) :
    itemChars (j :: js) = j.chars ++ js.flatMap fun k => ',' :: k.chars := by
  induction js generalizing j with
  | nil => simp [itemChars]
  | cons k js ih => rw [itemChars, ih, List.flatMap_cons]; simp

theorem array_chars (items : List Json) :
    (Json.array items).chars = '[' :: (itemChars items ++ [']']) := by
  rw [chars, List.cons_append]

/-- Behind an item stands a comma or the end of the array. -/
theorem more_stops (js : List Json) (rest : List Char) :
    Text.Stops isWordChar (js.flatMap (fun k => ',' :: k.chars) ++ ']' :: rest) := by
  cases js with
  | nil => exact Text.stops_cons (by decide) _
  | cons j js => exact Text.stops_cons (by decide) _

section Items

variable {α β : Type} {f : α → Json} {g : α → β}

/-- Items that can be told from what follows them tell what they are of. -/
theorem more_append_inj {as bs : List α} {rest rest' : List Char}
    (hitem : ∀ a ∈ as, ∀ b ∈ bs, ∀ s s', Text.Stops isWordChar s → Text.Stops isWordChar s' →
      (f a).chars ++ s = (f b).chars ++ s' → g a = g b ∧ s = s')
    (h : (as.map f).flatMap (fun k => ',' :: k.chars) ++ ']' :: rest =
      (bs.map f).flatMap (fun k => ',' :: k.chars) ++ ']' :: rest') :
    as.map g = bs.map g ∧ rest = rest' := by
  induction as generalizing bs with
  | nil =>
    cases bs with
    | nil => exact ⟨rfl, (List.cons.inj h).2⟩
    | cons b bs => exact absurd (List.cons.inj h).1 (by decide)
  | cons a as ih =>
    cases bs with
    | nil => exact absurd (List.cons.inj h).1 (by decide)
    | cons b bs =>
      simp only [List.map_cons, List.flatMap_cons, List.cons_append, List.append_assoc,
        List.cons.injEq, true_and] at h
      obtain ⟨hg, hrest⟩ := hitem a (by simp) b (by simp) _ _ (more_stops _ _) (more_stops _ _) h
      obtain ⟨hgs, hrest'⟩ := ih (fun a ha b hb =>
        hitem a (List.mem_cons_of_mem _ ha) b (List.mem_cons_of_mem _ hb)) hrest
      exact ⟨by rw [List.map_cons, List.map_cons, hg, hgs], hrest'⟩

theorem items_append_inj {as bs : List α} {rest rest' : List Char}
    (hfirst : ∀ a s s', (f a).chars ++ s ≠ ']' :: s')
    (hitem : ∀ a ∈ as, ∀ b ∈ bs, ∀ s s', Text.Stops isWordChar s → Text.Stops isWordChar s' →
      (f a).chars ++ s = (f b).chars ++ s' → g a = g b ∧ s = s')
    (h : itemChars (as.map f) ++ ']' :: rest = itemChars (bs.map f) ++ ']' :: rest') :
    as.map g = bs.map g ∧ rest = rest' := by
  have hends : ∀ (a : α) (as : List α) (s s' : List Char),
      itemChars ((a :: as).map f) ++ s ≠ ']' :: s' := by
    intro a as s s'
    rw [List.map_cons, itemChars_cons, List.append_assoc]
    exact hfirst a _ _
  cases as with
  | nil =>
    cases bs with
    | nil => exact ⟨rfl, (List.cons.inj h).2⟩
    | cons b bs => exact absurd h.symm (hends b bs _ _)
  | cons a as =>
    cases bs with
    | nil => exact absurd h (hends a as _ _)
    | cons b bs =>
      rw [List.map_cons, List.map_cons, itemChars_cons, itemChars_cons, List.append_assoc,
        List.append_assoc] at h
      obtain ⟨hg, hrest⟩ := hitem a (by simp) b (by simp) _ _ (more_stops _ _) (more_stops _ _) h
      obtain ⟨hgs, hrest'⟩ := more_append_inj (fun a ha b hb =>
        hitem a (List.mem_cons_of_mem _ ha) b (List.mem_cons_of_mem _ hb)) hrest
      exact ⟨by rw [List.map_cons, List.map_cons, hg, hgs], hrest'⟩

end Items

end Json

end QueryLoom
