import QueryLoom.Value.Text
import QueryLoom.Wire.Decode
import QueryLoom.Wire.Encode

/-!
# Domains around a type

A domain has the cells of its base, and a cell is read the same way through any number of domains,
also where they are inside of arrays. In the other direction a domain is known by its name alone: it
takes no value but NULL, or a text if it has the name of a type of texts, whatever its base takes.
-/

set_option autoImplicit false

namespace QueryLoom

namespace WireType

/-- Made from a type by domains around it and around what its arrays hold. -/
inductive Covers : WireType → WireType → Prop
  | refl (t : WireType) : Covers t t
  | domain (name : String) {d t : WireType} (h : Covers d t) : Covers (.domain name d) t
  | array (name : String) {d t : WireType} (h : Covers d t) :
      Covers (.array name d) (.array name t)

def isDomain : WireType → Bool
  | .domain .. => true
  | _ => false

end WireType

def Value.kind? : Value → Option ParameterKind
  | .bool _ => some .bool
  | .int _ => some .int
  | .float _ => some .float
  | .text _ => some .text
  | _ => none

def Wire.Agree (a b : Except EncodeError Wire.Cell) : Prop := a.toOption = b.toOption

open Wire WireType

theorem Wire.decode?_covers {d t : WireType} (h : d.Covers t) (raw : List UInt8) :
    decode? d raw = decode? t raw := by
  induction h generalizing raw with
  | refl => rfl
  | domain name h ih => rw [decode?, ih]
  | array name h ih => simp only [decode?, ih]

namespace Value

/-- NULL and lists are the same to all types. -/
theorem encode_of_kind?_none {v : Value} (h : v.kind? = none) (d t : WireType) :
    v.encode d = v.encode t := by
  cases v with
  | null | list => rfl
  | bool | int | float | text => cases h

theorem encode_domain {v : Value} {k : ParameterKind} (h : v.kind? = some k) {d : WireType}
    (hd : d.isDomain = true) : v.encode d = (encodeAsText k d v.bare).map some := by
  cases d with
  | domain name base =>
    cases v <;> cases h <;>
      simp [encode, encodeBool, encodeInt, encodeDouble, encodeString, bare]
  | _ => cases hd

theorem encode_array (v : Value) (name : String) (d t : WireType) :
    v.encode (.array name d) = v.encode (.array name t) := by
  cases v <;> rfl

theorem encode_covers (v : Value) {d t : WireType} (h : d.Covers t) (hd : d.isDomain = false) :
    v.encode d = v.encode t := by
  cases h with
  | refl => rfl
  | domain => cases hd
  | array name => exact encode_array v name _ _

end Value

/-- Reading goes through domains and writing stops at them. What a domain makes of a value that is
neither NULL nor a list is what its base makes of it only if both turn the value away or both want
the same text. -/
theorem WireType.Covers.agrees_iff {d t : WireType} (h : d.Covers t) :
    (∀ raw, decode? d raw = decode? t raw) ∧
      ∀ v : Value,
        (v.kind? = none ∨ d.isDomain = false → v.encode d = v.encode t) ∧
          ∀ k, v.kind? = some k → d.isDomain = true →
            v.encode d = (encodeAsText k d v.bare).map some ∧
              (Agree (v.encode d) (v.encode t) ↔
                if d.isTextual then v.encode t = .ok (some (encodeText d v.bare))
                else ∃ e, v.encode t = .error e) := by
  refine ⟨decode?_covers h, fun v => ⟨?_, fun k hk hd => ?_⟩⟩
  · rintro (hk | hd)
    · exact Value.encode_of_kind?_none hk d t
    · exact v.encode_covers h hd
  · have hencoded := Value.encode_domain hk hd
    refine ⟨hencoded, ?_⟩
    rw [Agree, hencoded, encodeAsText]
    cases htextual : d.isTextual with
    | true => cases v.encode t <;> simp [Except.map, Except.toOption, eq_comm]
    | false => cases v.encode t <;> simp [Except.map, Except.toOption]

def stock : WireType := .domain "stock" (.domain "quantity" (.scalar .int4))

/-- A fetched quantity is no parameter of the column that it came from. -/
theorem stock_refused :
    stock.Covers (.scalar .int4) ∧ decode? stock [0, 0, 0, 5] = some (.int 5) ∧
      (Value.int 5).encode (.scalar .int4) = .ok (some [0, 0, 0, 5]) ∧
      ¬ Agree ((Value.int 5).encode stock) ((Value.int 5).encode (.scalar .int4)) := by
  have hcovers : stock.Covers (.scalar .int4) := .domain "stock" (.domain "quantity" (.refl _))
  have hbase : (Value.int 5).encode (.scalar .int4) = .ok (some [0, 0, 0, 5]) := by rfl
  obtain ⟨hread, hwrite⟩ := hcovers.agrees_iff
  refine ⟨hcovers, ?_, hbase, ?_⟩
  · rw [hread]
    rfl
  · have htextual : stock.isTextual = false := by decide
    rw [((hwrite (.int 5)).2 .int rfl rfl).2, htextual, hbase]
    simp

end QueryLoom
