import QueryLoom.Proofs.Identifier.Grammar
import QueryLoom.Proofs.Text.Digits
import QueryLoom.Proofs.Text.Utf8
import QueryLoom.Table.Alteration

/-!
# Generated names of foreign keys

A foreign key that is given no name is called after the table that has it and a digest of both
ends of the reference. In the text under the digest four names stand between marks that no name
contains, so it tells all four. Of the table the generated name keeps forty characters and of the
digest ten, whatever the lengths, and it is a name for itself. It tells exactly what it keeps, so
two references are called the same only if ten digits of two digests of different texts agree.
-/

set_option autoImplicit false

namespace QueryLoom

open Identifier (isPart InGrammar)

structure Link where
  table : String
  column : String
  refTable : String
  refColumn : String
  deriving DecidableEq, Repr

namespace Link

/-- All four names are what the checks let through, each table behind some table prefix. -/
structure Accepted (l : Link) : Prop where
  table : ∃ tablePrefix s, Identifier.table tablePrefix s = .ok l.table
  column : ∃ s, Identifier.column s = .ok l.column
  refTable : ∃ tablePrefix s, Identifier.table tablePrefix s = .ok l.refTable
  refColumn : ∃ s, Identifier.column s = .ok l.refColumn

def text (l : Link) : String :=
  Alteration.referenceText l.table l.column l.refTable l.refColumn

def bytes (l : Link) : List UInt8 := Text.Utf8.encode l.text.toList

def digits (l : Link) : List Char := (Blake3.hexDigest l.bytes).toList.take 10

def stem (l : Link) : List Char := l.table.toList.take 40

def name (l : Link) : String :=
  Alteration.foreignKeyName l.table l.column l.refTable l.refColumn

variable {l l' : Link}

/-! ## The text under the digest -/

/-- The checks leave a name as it is, so what they let through are the names. -/
theorem accepted_iff_names : l.Accepted ↔ IsIdentifier l.table ∧ IsIdentifier l.column ∧
    IsIdentifier l.refTable ∧ IsIdentifier l.refColumn := by
  constructor
  · rintro ⟨⟨_, _, htable⟩, ⟨_, hcolumn⟩, ⟨_, _, hrefTable⟩, ⟨_, hrefColumn⟩⟩
    exact ⟨Identifier.table_ok htable, Identifier.column_ok hcolumn,
      Identifier.table_ok hrefTable, Identifier.column_ok hrefColumn⟩
  · have hkept : ∀ {s}, IsIdentifier s → s = Identifier.normalize s ∧ InGrammar s := fun hs =>
      ⟨(Identifier.normalize_eq_self hs).symm, Identifier.inGrammar_iff.mpr hs⟩
    have htable : ∀ {s}, IsIdentifier s → Identifier.table "" s = .ok s := fun hs =>
      Identifier.table_eq_ok_iff.mpr (by simpa using hkept hs)
    have hcolumn : ∀ {s}, IsIdentifier s → Identifier.column s = .ok s := fun hs =>
      Identifier.column_eq_ok_iff.mpr (hkept hs)
    rintro ⟨ht, hc, hrt, hrc⟩
    exact ⟨⟨"", _, htable ht⟩, ⟨_, hcolumn hc⟩, ⟨"", _, htable hrt⟩, ⟨_, hcolumn hrc⟩⟩

theorem toList_text (l : Link) :
    l.text.toList = l.table.toList ++ '.' :: (l.column.toList ++ '>' ::
      (l.refTable.toList ++ '.' :: l.refColumn.toList)) := by
  simp [text, Alteration.referenceText]

/-- The names are read off one after the other, each up to the mark behind it. -/
theorem text_injective (h : l.Accepted) (h' : l'.Accepted) (heq : l.text = l'.text) : l = l' := by
  obtain ⟨htable, hcolumn, hrefTable, -⟩ := accepted_iff_names.mp h
  obtain ⟨htable', hcolumn', hrefTable', -⟩ := accepted_iff_names.mp h'
  have hchars := congrArg String.toList heq
  rw [toList_text, toList_text] at hchars
  obtain ⟨htables, hchars⟩ := htable.append_cons_inj htable' (by decide) hchars
  obtain ⟨hcolumns, hchars⟩ := hcolumn.append_cons_inj hcolumn' (by decide) hchars
  obtain ⟨hrefTables, hrefColumns⟩ := hrefTable.append_cons_inj hrefTable' (by decide) hchars
  cases l
  cases l'
  simp_all [String.toList_inj]

theorem bytes_injective (h : l.Accepted) (h' : l'.Accepted) (heq : l.bytes = l'.bytes) :
    l = l' :=
  text_injective h h' (String.toList_injective (Text.Utf8.encode_injective heq))

/-! ## Digits of a digest -/

theorem length_digest (bytes : List UInt8) : (Blake3.digest bytes).length = 32 := by
  simp [Blake3.digest, Blake3.wordBytes, List.length_flatMap]

theorem digits_eq (l : Link) :
    l.digits = ((Blake3.digest l.bytes).flatMap Text.hexDigits).take 10 := by
  rw [digits, Blake3.hexDigest, Text.toList_hexBytes]

theorem length_digits (l : Link) : l.digits.length = 10 := by
  rw [digits_eq, List.length_take, Text.length_flatMap_hexDigits, length_digest]
  rfl

theorem digits_isPart (l : Link) : ∀ c ∈ l.digits, isPart c = true := by
  have hdigit : ∀ n < 16, isPart (Nat.digitChar n) = true := by decide
  intro c hc
  rw [digits_eq] at hc
  obtain ⟨b, -, hb⟩ := List.mem_flatMap.mp (List.mem_of_mem_take hc)
  have hlt := b.toNat_lt
  rcases List.mem_pair.mp hb with rfl | rfl
  · exact hdigit _ (by omega)
  · exact hdigit _ (by omega)

/-! ## The name -/

theorem toList_name (l : Link) :
    l.name.toList = 'f' :: 'k' :: '_' :: (l.stem ++ '_' :: l.digits) := by
  simp [name, Alteration.foreignKeyName, stem, digits, bytes, text]

theorem length_name (l : Link) : l.name.length = l.stem.length + 14 := by
  rw [← String.length_toList, toList_name]
  simp [length_digits]

theorem name_eq_iff (l l' : Link) :
    l.name = l'.name ↔ l.stem = l'.stem ∧ l.digits = l'.digits := by
  rw [← String.toList_inj, toList_name, toList_name]
  constructor
  · intro h
    have hlength : ('_' :: l.digits).length = ('_' :: l'.digits).length := by
      rw [List.length_cons, List.length_cons, length_digits, length_digits]
    obtain ⟨hstem, hdigits⟩ := List.append_inj' (by simpa using h) hlength
    exact ⟨hstem, (List.cons.inj hdigits).2⟩
  · rintro ⟨hstem, hdigits⟩
    rw [hstem, hdigits]

theorem name_inGrammar (h : IsIdentifier l.table) : InGrammar l.name := by
  rw [Identifier.inGrammar_iff]
  refine ⟨'f', _, toList_name l, by decide, fun c hc => ?_⟩
  have hmark : ∀ c, c = 'k' ∨ c = '_' → isPart c = true := by
    rintro c (rfl | rfl) <;> decide
  simp only [List.mem_cons, List.mem_append] at hc
  rcases hc with hk | hmark' | hstem | hmark' | hdigits
  · exact hmark c (.inl hk)
  · exact hmark c (.inr hmark')
  · exact h.isPart (List.mem_of_mem_take hstem)
  · exact hmark c (.inr hmark')
  · exact digits_isPart l c hdigits

/-- The generated name is a name of at most 54 characters. Of another reference, the digest is
taken of other bytes, and the name is the same exactly if the tables begin alike and ten digits
agree. -/
theorem name_separates (h : l.Accepted) :
    InGrammar l.name ∧ l.name.length ≤ 54 ∧
      ∀ l' : Link, l'.Accepted → l' ≠ l →
        l'.bytes ≠ l.bytes ∧
        (l'.name = l.name ↔ l'.stem = l.stem ∧ l'.digits = l.digits) := by
  refine ⟨name_inGrammar (accepted_iff_names.mp h).1, ?_, fun l' h' hne => ⟨fun hbytes => ?_, ?_⟩⟩
  · have hstem : l.stem.length ≤ 40 := List.length_take_le 40 _
    rw [length_name]
    omega
  · exact hne (bytes_injective h' h hbytes)
  · exact name_eq_iff l' l

def adjustments (year : String) : Link :=
  ⟨"customer_order_line_item_adjustments_" ++ year, "order", "orders", "id"⟩

/-- The digits alone tell two of these references apart. -/
theorem adjustments_separates :
    ((adjustments "2024").Accepted ∧ (adjustments "2025").Accepted ∧
      adjustments "2025" ≠ adjustments "2024") ∧
    InGrammar (adjustments "2024").name ∧ (adjustments "2024").name.length ≤ 54 ∧
    (adjustments "2025").bytes ≠ (adjustments "2024").bytes ∧
    (adjustments "2025").stem = (adjustments "2024").stem ∧
    (adjustments "2025").name ≠ (adjustments "2024").name := by
  have h : (adjustments "2024").Accepted := accepted_iff_names.mpr (by decide +kernel)
  have h' : (adjustments "2025").Accepted := accepted_iff_names.mpr (by decide +kernel)
  have hne : adjustments "2025" ≠ adjustments "2024" := by decide +kernel
  have hdigits : (adjustments "2025").digits ≠ (adjustments "2024").digits := by
    rw [digits_eq, digits_eq]
    decide +kernel
  obtain ⟨hgrammar, hlength, hothers⟩ := name_separates h
  obtain ⟨hbytes, hname⟩ := hothers _ h' hne
  exact ⟨⟨h, h', hne⟩, hgrammar, hlength, hbytes, by decide +kernel,
    fun hsame => hdigits (hname.mp hsame).2⟩

end Link

end QueryLoom
