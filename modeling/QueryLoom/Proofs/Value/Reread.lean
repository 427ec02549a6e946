import QueryLoom.Proofs.Json.Reader
import QueryLoom.Proofs.Value.Json

/-!
# Values read back from their JSON

The JSON of a value without doubles is exact, and it nests as deep as the lists of the value. So
such a value comes back as it was, with its kind and its contents, as far down as the reader goes.
-/

set_option autoImplicit false

namespace QueryLoom.Value

inductive WithoutDoubles : Value → Prop
  | null : WithoutDoubles .null
  | bool (b : Bool) : WithoutDoubles (.bool b)
  | int (n : Int64) : WithoutDoubles (.int n)
  | text (s : String) : WithoutDoubles (.text s)
  | list (items : List Value) (h : ∀ v ∈ items, WithoutDoubles v) : WithoutDoubles (.list items)

mutual

def nesting : Value → Nat
  | .list items => itemsNesting items + 1
  | .null | .bool _ | .int _ | .float _ | .text _ => 0

def itemsNesting : List Value → Nat
  | [] => 0
  | v :: vs => max v.nesting (itemsNesting vs)

end

mutual

theorem nesting_toJson (v : Value) : v.toJson.nesting = v.nesting := by
  match v with
  | .null | .bool _ | .int _ | .text _ => rw [toJson, Json.nesting, nesting]
  | .float x =>
    rw [toJson, Json.ofDouble, nesting]
    split <;> rw [Json.nesting]
  | .list items => rw [toJson, Json.nesting, nesting, itemsNesting_toJson items]

theorem itemsNesting_toJson (vs : List Value) :
    Json.itemsNesting (itemsToJson vs) = itemsNesting vs := by
  match vs with
  | [] => rw [itemsToJson, Json.itemsNesting, itemsNesting]
  | v :: vs =>
    rw [itemsToJson, Json.itemsNesting, itemsNesting, nesting_toJson v, itemsNesting_toJson vs]

end

variable {v : Value}

theorem WithoutDoubles.exact_toJson (h : v.WithoutDoubles) : v.toJson.Exact := by
  induction h with
  | null => exact .null
  | bool b => exact .bool b
  | int n => exact .int n.toInt n.le_toInt (Int.lt_trans n.toInt_lt (by decide))
  | text s => exact .string s
  | list items h ih =>
    rw [toJson, itemsToJson_eq_map]
    refine .array _ fun j hj => ?_
    obtain ⟨w, hw, rfl⟩ := List.mem_map.mp hj
    exact ih w hw

/-- Without doubles there is nothing to be blurred. -/
theorem WithoutDoubles.blur_eq (h : v.WithoutDoubles) : v.blur = v := by
  induction h with
  | null | bool b | int n | text s => rfl
  | list items h ih => rw [blur, blurItems_eq_map, List.map_congr_left ih, List.map_id']

/-- A value without doubles comes back from its JSON text as the same value if its lists nest at
most 127 deep. If they nest deeper, the text is refused. -/
theorem readJson?_text (h : v.WithoutDoubles) :
    readJson? v.toJson.text = if v.nesting ≤ 127 then some v else none := by
  rw [readJson?, h.exact_toJson.read?_text, nesting_toJson, Json.maxDepth]
  split
  · rw [Option.bind_some, ofJson?_toJson, h.blur_eq]
  · rfl

def mixture : Value :=
  .list [.int Int64.minValue, .text "\x00\"\\/\u2028", .null, .list [], .list [.bool true]]

theorem mixture_withoutDoubles : mixture.WithoutDoubles := by
  refine .list _ ?_
  simp only [List.forall_mem_cons]
  refine ⟨.int _, .text _, .null, .list _ (by simp), .list _ ?_, by simp⟩
  simpa using WithoutDoubles.bool true

theorem mixture_readJson? :
    mixture.WithoutDoubles ∧ readJson? mixture.toJson.text = some mixture := by
  refine ⟨mixture_withoutDoubles, ?_⟩
  rw [readJson?_text mixture_withoutDoubles, if_pos (by decide)]

end QueryLoom.Value
