import QueryLoom.Identifier
import QueryLoom.Proofs.Text.Span

/-!
# Accepted names and fragments

What the checks let through: a name is a letter or underscore followed by letters, digits and
underscores, all ASCII and lower case; a raw fragment is not empty and holds no marker.
-/

set_option autoImplicit false

namespace QueryLoom

def IsIdentifier (s : String) : Prop :=
  ∃ c cs, s.toList = c :: cs ∧ Identifier.isStart c = true ∧ ∀ d ∈ cs, Identifier.isPart d = true

def MarkerFree (cs : List Char) : Prop := ∀ m ∈ Marker.all, ¬ m.chars <:+: cs

def IsFragment (s : String) : Prop := s.toList ≠ [] ∧ MarkerFree s.toList

theorem IsIdentifier.isPart {s : String} (h : IsIdentifier s) {c : Char} (hc : c ∈ s.toList) :
    Identifier.isPart c = true := by
  obtain ⟨d, ds, hs, hd, hds⟩ := h
  rw [hs] at hc
  rcases List.mem_cons.mp hc with rfl | hc
  · simp [Identifier.isPart, hd]
  · exact hds c hc

/-- A name that stands in front of a mark can be told from the whole, and so can the rest. -/
theorem IsIdentifier.append_cons_inj {s t : String} (hs : IsIdentifier s) (ht : IsIdentifier t)
    {mark : Char} (hmark : Identifier.isPart mark = false) {rest rest' : List Char}
    (h : s.toList ++ mark :: rest = t.toList ++ mark :: rest') : s = t ∧ rest = rest' := by
  obtain ⟨hname, hrest⟩ := Text.append_inj_of_stops (fun _ => hs.isPart) (fun _ => ht.isPart)
    (Text.stops_cons hmark rest) (Text.stops_cons hmark rest') h
  exact ⟨String.toList_injective hname, (List.cons.inj hrest).2⟩

namespace Identifier

theorem isPart_iff (c : Char) :
    isPart c = true ↔ c = '_' ∨ c.isLower = true ∨ c.isDigit = true := by
  simp [isPart, isStart, or_assoc]

theorem check_ok {name t : String} (h : check name = .ok t) : t = name ∧ IsIdentifier name := by
  unfold check at h
  split at h
  · cases h
  · rename_i c cs hname
    split at h
    · rename_i hc
      split at h
      · rename_i hcs
        refine ⟨(Except.ok.inj h).symm, c, cs, hname, hc, fun d hd => ?_⟩
        simpa using List.find?_eq_none.mp hcs d hd
      · cases h
    · cases h

theorem column_ok {s t : String} (h : column s = .ok t) : IsIdentifier t := by
  obtain ⟨rfl, hs⟩ := check_ok h
  exact hs

theorem table_ok {tablePrefix s t : String} (h : table tablePrefix s = .ok t) :
    IsIdentifier t := by
  obtain ⟨rfl, hs⟩ := check_ok h
  exact hs

/-! What is refused is refused as a misuse. -/

theorem check_error {name : String} {e : Error} (h : check name = .error e) : e.isUsage = true := by
  unfold check at h
  split at h
  · cases h
    rfl
  · split at h
    · split at h
      · cases h
      · cases h
        rfl
    · cases h
      rfl

theorem column_error {s : String} {e : Error} (h : column s = .error e) : e.isUsage = true := by
  rw [column] at h
  exact check_error h

theorem table_error {tablePrefix s : String} {e : Error} (h : table tablePrefix s = .error e) :
    e.isUsage = true := by
  rw [table] at h
  exact check_error h

theorem rawFragment_error {kind s : String} {e : Error} (h : rawFragment kind s = .error e) :
    e.isUsage = true := by
  simp only [rawFragment] at h
  split at h
  · cases h
    rfl
  · split at h
    · cases h
      rfl
    · cases h

theorem occurs_iff (needle cs : List Char) : occurs needle cs = true ↔ needle <:+: cs := by
  induction cs with
  | nil => simp [occurs]
  | cons c cs ih => simp [occurs, ih, List.infix_cons_iff]

theorem rawFragment_ok {kind s t : String} (h : rawFragment kind s = .ok t) : IsFragment t := by
  simp only [rawFragment] at h
  split at h
  · cases h
  · rename_i hne
    split at h
    · cases h
    · rename_i hmarks
      cases h
      refine ⟨by simpa using hne, fun m hm hin => ?_⟩
      have hfree := List.find?_eq_none.mp hmarks m hm
      rw [occurs_iff] at hfree
      exact hfree (by simpa using hin)

end Identifier

theorem ColumnRef.parse_ok {tablePrefix s : String} {r : ColumnRef}
    (h : ColumnRef.parse tablePrefix s = .ok r) :
    (∀ t, r.table = some t → IsIdentifier t) ∧ IsIdentifier r.column := by
  simp only [ColumnRef.parse, bind, Except.bind, pure, Except.pure] at h
  split at h
  · split at h
    · cases h
    · rename_i c hc
      cases h
      exact ⟨by simp, Identifier.column_ok hc⟩
  · split at h
    · cases h
    · rename_i t ht
      split at h
      · cases h
      · rename_i c hc
        cases h
        refine ⟨fun u hu => ?_, Identifier.column_ok hc⟩
        cases hu
        exact Identifier.table_ok ht

end QueryLoom
