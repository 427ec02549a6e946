import QueryLoom.Cache
import QueryLoom.Proofs.Text.Collapse
import QueryLoom.Proofs.Text.Utf8
import QueryLoom.Proofs.Value.Json

/-!
# What a key identifies

A key is the digest of a text that begins with the collapsed statement. A collapsed statement has
no line break, so the first line break of the text is where the values begin, and both can be read
off the text: the statement up to white space, the values up to what their JSON does not tell.
-/

set_option autoImplicit false

namespace QueryLoom

namespace Cache

theorem collapse_no_break (cs : List Char) : ∀ c ∈ Text.collapse cs, (c != '\n') = true := by
  intro c hc
  rcases Text.mem_collapse hc with rfl | ⟨-, hblank⟩
  · decide
  · rw [bne_iff_ne]
    rintro rfl
    exact absurd hblank (by decide)

/-- The text under a key tells the statement up to white space and the blurred values. -/
theorem keyText_eq_iff (sql sql' : String) (b b' : Bindings) :
    keyText sql b = keyText sql' b' ↔
      Text.collapse sql.toList = Text.collapse sql'.toList ∧ b.blur = b'.blur := by
  rw [keyText, keyText]
  constructor
  · intro h
    obtain ⟨hsql, hvalues⟩ := Text.append_inj_of_stops (collapse_no_break _) (collapse_no_break _)
      (Text.stops_cons (by decide) _) (Text.stops_cons (by decide) _) h
    exact ⟨hsql, (Bindings.toJson_chars_iff b b').mp (List.cons.inj hvalues).2⟩
  · rintro ⟨hsql, hvalues⟩
    rw [hsql, (Bindings.toJson_chars_iff b b').mpr hvalues]

/-- Two statements with values share a key, the digest having no collision on them, exactly if the
statements are the same up to white space and the values are the same but for doubles that are not
finite, which count as NULL. -/
theorem key_eq_iff (sql sql' : String) (b b' : Bindings)
    (hcollision : Blake3.hexDigest (Text.Utf8.encode (keyText sql b)) =
      Blake3.hexDigest (Text.Utf8.encode (keyText sql' b')) →
      Text.Utf8.encode (keyText sql b) = Text.Utf8.encode (keyText sql' b')) :
    key sql b = key sql' b' ↔
      Text.collapse sql.toList = Text.collapse sql'.toList ∧ b.blur = b'.blur := by
  rw [← keyText_eq_iff, key, key]
  constructor
  · intro h
    exact Text.Utf8.encode_injective (hcollision h)
  · intro h
    rw [h]

def comparison : String := "SELECT * FROM users WHERE x < :a"

/-- The rows that were read for an infinite bound answer the same statement with NULL. -/
theorem key_infinite_eq_null :
    key comparison ⟨[("a", .float ⟨0x7ff0000000000000⟩)]⟩ = key comparison ⟨[("a", .null)]⟩ ∧
      (⟨[("a", .float ⟨0x7ff0000000000000⟩)]⟩ : Bindings) ≠ ⟨[("a", .null)]⟩ := by
  refine ⟨(key_eq_iff _ _ _ _ fun _ => rfl).mpr ⟨rfl, rfl⟩, fun h => ?_⟩
  simp at h

end Cache

end QueryLoom
