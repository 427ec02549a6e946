import QueryLoom.Proofs.Text.Digits
import QueryLoom.Proofs.Text.Utf8
import QueryLoom.Wire.Decode
import QueryLoom.Wire.Encode

/-!
# Bytes as a text and as a parameter

A cell of bytes is fetched as its base-sixteen digits behind a mark, and they tell the bytes. But a
text that is bound to a parameter of bytes stands for its own characters. So what is written for a
fetched cell is the mark and two characters for each byte, never the bytes themselves, and the
bytes that can be written at all are those of some text.
-/

set_option autoImplicit false

namespace QueryLoom

namespace Wire

def hexChars (raw : List UInt8) : List Char := '\\' :: 'x' :: raw.flatMap Text.hexDigits

theorem toList_hexText (raw : List UInt8) : (hexText raw).toList = hexChars raw := by
  rw [hexText, String.toList_append, Text.toList_hexBytes]
  rfl

theorem hexText_injective {raw more : List UInt8} (h : hexText raw = hexText more) :
    raw = more := by
  have hchars := congrArg String.toList h
  rw [toList_hexText, toList_hexText] at hchars
  exact Text.flatMap_hexDigits_injective (List.cons.inj (List.cons.inj hchars).2).2

theorem hexChars_ascii (raw : List UInt8) : ∀ c ∈ hexChars raw, c.toNat < 128 := by
  intro c hc
  simp only [hexChars, List.mem_cons, List.mem_flatMap, Text.hexDigits, List.not_mem_nil,
    or_false] at hc
  rcases hc with rfl | rfl | ⟨b, -, rfl | rfl⟩
  · decide
  · decide
  · exact Text.digitChar_ascii _ (by have := b.toNat_lt; omega)
  · exact Text.digitChar_ascii _ (by omega)

theorem length_hexChars (raw : List UInt8) : (hexChars raw).length = 2 * raw.length + 2 := by
  rw [hexChars, List.length_cons, List.length_cons, Text.length_flatMap_hexDigits]

/-- A parameter of bytes is a text, as its own bytes. -/
theorem encode_bytea_iff (v : Value) (raw : List UInt8) :
    v.encode (.scalar .bytea) = .ok (some raw) ↔
      ∃ cs, v = .text (String.ofList cs) ∧ raw = Text.Utf8.encode cs := by
  have htextual : (WireType.scalar .bytea).isTextual = false := by decide
  cases v with
  | text s =>
    constructor
    · intro h
      refine ⟨s.toList, by rw [String.ofList_toList], ?_⟩
      simpa [Value.encode, encodeString, Except.map] using h.symm
    · rintro ⟨cs, htext, rfl⟩
      cases htext
      simp [Value.encode, encodeString, Except.map]
  | null | bool | int | float | list =>
    simp [Value.encode, encodeBool, encodeInt, encodeDouble, encodeAsText, htextual, Except.map]

end Wire

open Wire

/-- What is fetched of a cell of bytes tells the bytes; written back it is the code of each
character, which is always something else. The bytes that can be written are those of a text. -/
theorem Wire.bytea_rewritten (raw : List UInt8) :
    decode? (.scalar .bytea) raw = some (.text (hexText raw)) ∧
      (∀ more, decode? (.scalar .bytea) more = some (.text (hexText raw)) → more = raw) ∧
      (∃ written, (Value.text (hexText raw)).encode (.scalar .bytea) = .ok (some written) ∧
        written = (hexChars raw).map (fun c => UInt8.ofNat c.toNat) ∧ written ≠ raw) ∧
      ((∃ v : Value, v.encode (.scalar .bytea) = .ok (some raw)) ↔
        ∃ cs, raw = Text.Utf8.encode cs) := by
  refine ⟨rfl, fun more hmore => ?_, ⟨_, ?_, rfl, ?_⟩, ?_⟩
  · exact hexText_injective (Value.text.inj (Option.some.inj hmore))
  · rw [encode_bytea_iff]
    exact ⟨hexChars raw, by rw [← toList_hexText, String.ofList_toList],
      (Text.Utf8.encode_ascii (hexChars_ascii raw)).symm⟩
  · intro h
    have hlength := congrArg List.length h
    rw [List.length_map, length_hexChars] at hlength
    omega
  · constructor
    · rintro ⟨v, hv⟩
      obtain ⟨cs, -, hraw⟩ := (encode_bytea_iff v raw).mp hv
      exact ⟨cs, hraw⟩
    · rintro ⟨cs, hraw⟩
      exact ⟨_, (encode_bytea_iff _ raw).mpr ⟨cs, rfl, hraw⟩⟩

/-- Three bytes are fetched as eight characters, and these are what is written. -/
theorem fetchedBytes_altered :
    decode? (.scalar .bytea) [0xde, 0xad, 0x01] = some (.text "\\xdead01") ∧
      (Value.text "\\xdead01").encode (.scalar .bytea) =
        .ok (some [0x5c, 0x78, 0x64, 0x65, 0x61, 0x64, 0x30, 0x31]) ∧
      ¬ ∀ raw, ∃ v, decode? (.scalar .bytea) raw = some v ∧
        v.encode (.scalar .bytea) = .ok (some raw) := by
  have hread : decode? (.scalar .bytea) [0xde, 0xad, 0x01] = some (.text "\\xdead01") := by
    rfl
  have hwritten : (Value.text "\\xdead01").encode (.scalar .bytea) =
      .ok (some [0x5c, 0x78, 0x64, 0x65, 0x61, 0x64, 0x30, 0x31]) := by decide +kernel
  refine ⟨hread, hwritten, fun hback => ?_⟩
  obtain ⟨v, hv, hsame⟩ := hback [0xde, 0xad, 0x01]
  obtain rfl : Value.text "\\xdead01" = v := Option.some.inj (hread.symm.trans hv)
  rw [hwritten] at hsame
  simp at hsame

end QueryLoom
