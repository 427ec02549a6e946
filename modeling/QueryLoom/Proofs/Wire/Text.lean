import QueryLoom.Proofs.Text.Utf8
import QueryLoom.Proofs.Wire.Domain

/-!
# Texts written and read

A type of texts takes every text, and its cells are read as the characters that their bytes are. So
a text comes back as it was, unless its type has a version in front of the bytes: the version is
written and read as a character. The name of a type decides what is written and its form what is
read, so that a domain or an array with the name of a type of texts is read as what it is.
-/

set_option autoImplicit false

namespace QueryLoom

open Wire

namespace WireType

def core : WireType → WireType
  | .domain _ base => base.core
  | t => t

theorem covers_core (t : WireType) : t.Covers t.core := by
  induction t with
  | domain name base ih => exact .domain name ih
  | scalar | array | enumeration | other => exact .refl _

def isPlain : WireType → Bool
  | .scalar s => s.isText
  | .enumeration _ => true
  | .other _ => true
  | _ => false

def mark (t : WireType) : String := if t.isVersioned then "\x01" else ""

end WireType

namespace Wire

theorem decode?_of_isPlain {t : WireType} (h : t.isPlain = true) (raw : List UInt8) :
    decode? t raw = some (.text (lossyText raw)) := by
  cases t with
  | scalar s =>
    cases s with
    | varchar | text | bpchar | name | unknown => rfl
    | _ => cases h
  | enumeration | other => rfl
  | array | domain => cases h

theorem lossyText_encode (cs : List Char) : lossyText (Text.Utf8.encode cs) = String.ofList cs := by
  rw [lossyText, Text.Utf8.decodeLossy_encode]

theorem encodeText_eq (t : WireType) (s : String) :
    encodeText t s = Text.Utf8.encode (t.mark ++ s).toList := by
  unfold encodeText WireType.mark
  cases t.isVersioned <;> simp [Text.Utf8.encode]
  rfl

theorem encodeString_of_isTextual {t : WireType} (h : t.isTextual = true) (s : String) :
    encodeString s t = .ok (encodeText t s) := by
  cases t with
  | scalar c =>
    cases c with
    | varchar | text | bpchar | name | unknown => rfl
    | _ => cases h
  | _ => simp [encodeString, encodeAsText, h]

end Wire

/-- Every text can be written to a type of texts. What is read then is the text behind the mark of
the type, and so the text itself exactly if the type has no version; only a domain around something
else, or an array, is read as what it is although it has the name of a type of texts. -/
theorem Wire.text_reread {t : WireType} (h : t.isTextual = true) (s : String) :
    (Value.text s).encode t = .ok (some (encodeText t s)) ∧
      decode? t (encodeText t s) =
        (if t.core.isPlain then some (.text (t.mark ++ s)) else decode? t.core (encodeText t s)) ∧
      (t.core.isPlain = true →
        (decode? t (encodeText t s) = some (.text s) ↔ t.isVersioned = false)) := by
  have hread : t.core.isPlain = true →
      decode? t (encodeText t s) = some (.text (t.mark ++ s)) := fun hplain => by
    rw [decode?_covers t.covers_core, decode?_of_isPlain hplain, encodeText_eq, lossyText_encode,
      String.ofList_toList]
  refine ⟨?_, ?_, fun hplain => ?_⟩
  · rw [Value.encode, encodeString_of_isTextual h]
    rfl
  · split
    · rename_i hplain
      exact hread hplain
    · exact decode?_covers t.covers_core _
  · rw [hread hplain, Option.some.injEq, Value.text.injEq]
    unfold WireType.mark
    cases t.isVersioned with
    | false => simp
    | true =>
      refine iff_of_false (fun hself => ?_) (by decide)
      have hchars := congrArg String.length hself
      simp at hchars

/-- A path of a tree comes back with the version in front of it, and a label of an enumeration as
it was. -/
theorem path_reread :
    (WireType.other "ltree").isTextual = true ∧
      (Value.text "Top.Science").encode (.other "ltree") =
        .ok (some (encodeText (.other "ltree") "Top.Science")) ∧
      decode? (.other "ltree") (encodeText (.other "ltree") "Top.Science") =
        some (.text "\x01Top.Science") ∧
      decode? (.enumeration "mood") (encodeText (.enumeration "mood") "happy") =
        some (.text "happy") := by
  have hpath : (WireType.other "ltree").isTextual = true := by decide
  obtain ⟨hwritten, hread, -⟩ := text_reread hpath "Top.Science"
  have hlabel := (text_reread (show (WireType.enumeration "mood").isTextual = true by decide)
    "happy").2.2 rfl
  refine ⟨hpath, hwritten, ?_, hlabel.mpr (by decide)⟩
  rw [hread]
  rfl

end QueryLoom
