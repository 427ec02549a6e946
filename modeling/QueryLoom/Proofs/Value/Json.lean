import QueryLoom.Bindings
import QueryLoom.Proofs.Json.Text

/-!
# What the JSON of values tells

The JSON of a value tells its kind and its contents, but for one thing: a double that is not
finite has no notation and is written like NULL. A value in which such doubles have become NULL is
blurred; two values have the same text if and only if they are the same once they are blurred.
-/

set_option autoImplicit false

namespace QueryLoom

namespace Value

mutual

def blur : Value → Value
  | .float x => if x.isFinite then .float x else .null
  | .list items => .list (blurItems items)
  | v => v

def blurItems : List Value → List Value
  | [] => []
  | v :: vs => v.blur :: blurItems vs

end

mutual

def isFinite : Value → Bool
  | .float x => x.isFinite
  | .list items => areFinite items
  | _ => true

def areFinite : List Value → Bool
  | [] => true
  | v :: vs => v.isFinite && areFinite vs

end

mutual

theorem blur_of_isFinite {v : Value} (h : v.isFinite = true) : v.blur = v := by
  match v with
  | .null | .bool _ | .int _ | .text _ => rfl
  | .float x =>
    rw [isFinite] at h
    rw [blur, if_pos h]
  | .list items =>
    rw [isFinite] at h
    rw [blur, blurItems_of_areFinite h]

theorem blurItems_of_areFinite {vs : List Value} (h : areFinite vs = true) : blurItems vs = vs := by
  match vs with
  | [] => rfl
  | v :: vs =>
    rw [areFinite, Bool.and_eq_true] at h
    rw [blurItems, blur_of_isFinite h.1, blurItems_of_areFinite h.2]

end

theorem blurItems_eq_map (vs : List Value) : blurItems vs = vs.map blur := by
  induction vs with
  | nil => rfl
  | cons v vs ih => rw [blurItems, ih, List.map_cons]

theorem itemsToJson_eq_map (vs : List Value) : itemsToJson vs = vs.map toJson := by
  induction vs with
  | nil => rfl
  | cons v vs ih => rw [itemsToJson, ih, List.map_cons]

/-- Blurring does not show in the JSON. -/
theorem toJson_blur (v : Value) : v.blur.toJson = v.toJson := by
  match v with
  | .null | .bool _ | .int _ | .text _ => rfl
  | .float x =>
    rw [blur, toJson, Json.ofDouble]
    split
    · rename_i h
      rw [toJson, Json.ofDouble, if_pos h]
    · rfl
  | .list items =>
    rw [blur, toJson, toJson, blurItems_eq_map, itemsToJson_eq_map, itemsToJson_eq_map,
      List.map_map]
    congr 1
    refine List.map_congr_left fun w _ => ?_
    exact toJson_blur w
termination_by sizeOf v
decreasing_by
  have := List.sizeOf_lt_of_mem ‹w ∈ items›
  simp only [list.sizeOf_spec]
  omega

theorem toJson_cases (v : Value) :
    v.toJson.IsScalar ∨ (∃ s, v = .text s) ∨ ∃ items, v = .list items := by
  cases v with
  | null => exact Or.inl .null
  | bool b => exact Or.inl (.bool b)
  | int n => exact Or.inl (.int n.toInt)
  | float x =>
    left
    rw [toJson, Json.ofDouble]
    split
    · rename_i h
      exact .float x h
    · exact .null
  | text s => exact Or.inr (Or.inl ⟨s, rfl⟩)
  | list items => exact Or.inr (Or.inr ⟨items, rfl⟩)

theorem check_int (n : Int64) : (Text.Range.signed 64).check n.toInt = .ok n.toInt := by
  have hlow := n.le_toInt
  have hhigh := n.toInt_lt
  have hbelow : (Text.Range.signed 64).below = 2 ^ 63 := by decide
  have habove : (Text.Range.signed 64).above = 2 ^ 63 - 1 := by decide
  rw [Text.Range.check, if_neg (by rw [hbelow]; omega), if_neg (by rw [habove]; omega)]

/-- What is read from the JSON of a value is the blurred value. -/
theorem ofJson?_toJson (v : Value) : ofJson? v.toJson = some v.blur := by
  match v with
  | .null | .bool _ | .text _ => rfl
  | .int n =>
    rw [toJson, ofJson?, check_int]
    simp [blur]
  | .float x =>
    rw [toJson, blur, Json.ofDouble]
    split <;> rfl
  | .list items =>
    have hitems : ∀ ws : List Value, (∀ w ∈ ws, w ∈ items) →
        itemsOfJson? (itemsToJson ws) = some (blurItems ws) := by
      intro ws hws
      induction ws with
      | nil => rfl
      | cons w ws ih =>
        have hmem : w ∈ items := hws w (by simp)
        have hw := ofJson?_toJson w
        have hrest := ih fun u hu => hws u (List.mem_cons_of_mem _ hu)
        rw [itemsToJson, itemsOfJson?, hw, hrest]
        rfl
    rw [toJson, ofJson?, hitems items fun _ h => h]
    rfl
termination_by sizeOf v
decreasing_by
  have := List.sizeOf_lt_of_mem hmem
  simp only [list.sizeOf_spec]
  omega

theorem blur_eq_of_toJson_eq {v w : Value} (h : v.toJson = w.toJson) : v.blur = w.blur :=
  Option.some.inj (by rw [← ofJson?_toJson, h, ofJson?_toJson])

theorem text_chars (s : String) : (Value.text s).toJson.chars = Json.quote s := by
  rw [toJson, Json.chars]

theorem list_chars (items : List Value) :
    (Value.list items).toJson.chars = '[' :: (Json.itemChars (items.map toJson) ++ [']']) := by
  rw [toJson, Json.array_chars, itemsToJson_eq_map]

theorem chars_append_ne (v : Value) (rest rest' : List Char) :
    v.toJson.chars ++ rest ≠ ']' :: rest' := by
  rcases toJson_cases v with hv | ⟨s, rfl⟩ | ⟨items, rfl⟩
  · exact Json.scalar_append_ne hv (by decide) _ _
  · rw [text_chars]
    intro h
    exact absurd (List.cons.inj h).1 (by decide)
  · rw [list_chars]
    intro h
    exact absurd (List.cons.inj h).1 (by decide)

/-- The text of a value in front of a delimiter tells the blurred value. -/
theorem chars_append_inj (v w : Value) {rest rest' : List Char}
    (hr : Text.Stops Json.isWordChar rest) (hr' : Text.Stops Json.isWordChar rest')
    (h : v.toJson.chars ++ rest = w.toJson.chars ++ rest') : v.blur = w.blur ∧ rest = rest' := by
  rcases toJson_cases v with hv | ⟨s, rfl⟩ | ⟨items, rfl⟩ <;>
    rcases toJson_cases w with hw | ⟨t, rfl⟩ | ⟨items', rfl⟩
  · obtain ⟨hjson, hrest⟩ := Json.scalar_append_inj hv hw hr hr' h
    exact ⟨blur_eq_of_toJson_eq hjson, hrest⟩
  · rw [text_chars] at h
    exact absurd h (Json.scalar_append_ne hv (by decide) _ _)
  · rw [list_chars] at h
    exact absurd h (Json.scalar_append_ne hv (by decide) _ _)
  · rw [text_chars] at h
    exact absurd h.symm (Json.scalar_append_ne hw (by decide) _ _)
  · rw [text_chars, text_chars] at h
    obtain ⟨rfl, hrest⟩ := Json.quote_append_inj h
    exact ⟨rfl, hrest⟩
  · rw [text_chars, list_chars] at h
    exact absurd (List.cons.inj h).1 (by decide)
  · rw [list_chars] at h
    exact absurd h.symm (Json.scalar_append_ne hw (by decide) _ _)
  · rw [text_chars, list_chars] at h
    exact absurd (List.cons.inj h).1 (by decide)
  · rw [list_chars, list_chars] at h
    have hbody : Json.itemChars (items.map toJson) ++ ']' :: rest =
        Json.itemChars (items'.map toJson) ++ ']' :: rest' := by simpa using h
    obtain ⟨hitems, hrest⟩ := Json.items_append_inj (g := blur) chars_append_ne
      (fun a ha b _ s s' hs hs' heq => chars_append_inj a b hs hs' heq) hbody
    exact ⟨by rw [blur, blur, blurItems_eq_map, blurItems_eq_map, hitems], hrest⟩
termination_by sizeOf v
decreasing_by
  have := List.sizeOf_lt_of_mem ha
  rw [‹v = list items›, list.sizeOf_spec]
  omega

end Value

namespace Bindings

def blur (b : Bindings) : Bindings := ⟨b.entries.map fun e => (e.1, e.2.blur)⟩

def IsFinite (b : Bindings) : Prop := ∀ e ∈ b.entries, e.2.isFinite = true

theorem blur_of_isFinite {b : Bindings} (h : b.IsFinite) : b.blur = b := by
  have hentries : (b.entries.map fun e => (e.1, e.2.blur)) = b.entries.map id :=
    List.map_congr_left fun e he => by rw [Value.blur_of_isFinite (h e he), id]
  rw [blur, hentries, List.map_id]

theorem entry_chars (e : String × Value) (rest : List Char) :
    (Json.array [.string e.1, e.2.toJson]).chars ++ rest =
      '[' :: (Json.quote e.1 ++ ',' :: (e.2.toJson.chars ++ ']' :: rest)) := by
  rw [Json.array_chars, Json.itemChars_cons, Json.chars]
  simp

theorem entry_append_inj (e e' : String × Value) {rest rest' : List Char}
    (h : (Json.array [.string e.1, e.2.toJson]).chars ++ rest =
      (Json.array [.string e'.1, e'.2.toJson]).chars ++ rest') :
    (e.1, e.2.blur) = (e'.1, e'.2.blur) ∧ rest = rest' := by
  rw [entry_chars, entry_chars] at h
  obtain ⟨hkey, hvalue⟩ := Json.quote_append_inj (List.cons.inj h).2
  obtain ⟨hblur, hrest⟩ := Value.chars_append_inj e.2 e'.2 (Text.stops_cons (by decide) _)
    (Text.stops_cons (by decide) _) (List.cons.inj hvalue).2
  exact ⟨by rw [hkey, hblur], (List.cons.inj hrest).2⟩

theorem toJson_chars (b : Bindings) : b.toJson.chars = "\x7b\"entries\":[".toList ++
    (Json.itemChars (b.entries.map fun e => .array [.string e.1, e.2.toJson]) ++
      [']', '\x7d']) := by
  rw [toJson, Json.chars, Json.memberChars, Json.array_chars]
  have hname : Json.quote "entries" = "\"entries\"".toList := by decide +kernel
  rw [hname]
  simp

theorem toJson_blur (b : Bindings) : b.blur.toJson = b.toJson := by
  rw [toJson, toJson, blur, List.map_map]
  congr 4
  refine List.map_congr_left fun e _ => ?_
  rw [Function.comp_apply, Value.toJson_blur]

/-- The JSON of bindings tells the keys in order and the blurred values. -/
theorem toJson_chars_iff (b b' : Bindings) :
    b.toJson.chars = b'.toJson.chars ↔ b.blur = b'.blur := by
  constructor
  · intro h
    rw [toJson_chars, toJson_chars] at h
    obtain ⟨hentries, -⟩ := Json.items_append_inj (g := fun e => (e.1, e.2.blur))
      (fun e s s' heq => by
        rw [entry_chars] at heq
        exact absurd (List.cons.inj heq).1 (by decide))
      (fun e _ e' _ s s' _ _ heq => entry_append_inj e e' heq)
      (List.append_cancel_left h)
    rw [blur, blur, hentries]
  · intro h
    rw [← toJson_blur b, h, toJson_blur b']

end Bindings

end QueryLoom
