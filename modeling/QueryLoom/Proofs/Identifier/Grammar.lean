import Mathlib.Computability.RegularExpressions
import QueryLoom.Proofs.Attempt
import QueryLoom.Proofs.Identifier
import QueryLoom.Proofs.Text.Case

/-!
# The grammar of names

Names are the words of one regular expression, `[a-z_][a-z0-9_]*`. A name is already in its normal
form, and normalising drops nothing of a text but its white space, so a text in which there is
anything to see has a normal form, and a point in it stays for the check to refuse. A column is
accepted if and only if its normal form is a name. A table is accepted if and only if its normal
form behind the table prefix is one, which a prefix can be for itself: behind such a prefix a text
of white space is accepted too.
-/

set_option autoImplicit false

namespace QueryLoom

namespace Identifier
open Text

def letters : List Char := "abcdefghijklmnopqrstuvwxyz_".toList

def digits : List Char := "0123456789".toList

def oneOf (cs : List Char) : RegularExpression Char := cs.foldr (fun c r => .char c + r) 0

/-- What names look like: `[a-z_][a-z0-9_]*`. -/
def grammar : RegularExpression Char := oneOf letters * (oneOf (letters ++ digits)).star

def InGrammar (s : String) : Prop := s.toList ∈ grammar.matches'

variable {s : String} {c : Char}

theorem mem_oneOf {cs w : List Char} : w ∈ (oneOf cs).matches' ↔ ∃ c ∈ cs, w = [c] := by
  induction cs with
  | nil => simp [oneOf, Language.notMem_zero]
  | cons c cs ih =>
    have hchar : w ∈ (RegularExpression.char c).matches' ↔ w = [c] := Iff.rfl
    rw [oneOf, List.foldr_cons, ← oneOf, RegularExpression.matches'_add, Language.mem_add, hchar,
      ih]
    simp

theorem forall_ascii {P : Char → Prop} (h : ∀ n < 128, P (Char.ofNat n)) (hc : c.toNat < 128) :
    P c := by
  rw [← Char.ofNat_toNat c]
  exact h c.toNat hc

theorem isPart_code (h : isPart c = true) :
    c.toNat = 95 ∨ (97 ≤ c.toNat ∧ c.toNat ≤ 122) ∨ (48 ≤ c.toNat ∧ c.toNat ≤ 57) := by
  rw [isPart_iff, isLower_iff, Char.isDigit_iff_toNat] at h
  exact h.imp_left (congrArg Char.toNat)

theorem isPart_ascii (h : isPart c = true) : c.toNat < 128 := by
  have hcode := isPart_code h
  omega

/-- White space and capitals are in no name. -/
theorem isPart_plain (h : isPart c = true) : isBlank c = false ∧ c.isUpper = false := by
  have hcode := isPart_code h
  constructor
  · simp [isBlank]
    omega
  · rw [Bool.eq_false_iff, ne_eq, isUpper_iff]
    omega

/-- A class of ASCII characters is told by going through them. -/
theorem iff_mem_of_ascii {p : Char → Bool} {cs : List Char} (hp : ∀ c, p c = true → c.toNat < 128)
    (hcs : ∀ c ∈ cs, c.toNat < 128)
    (h : ∀ n < 128, p (Char.ofNat n) = true ↔ Char.ofNat n ∈ cs) (c : Char) :
    p c = true ↔ c ∈ cs := by
  have hascii : c.toNat < 128 → (p c = true ↔ c ∈ cs) :=
    forall_ascii (P := fun c => p c = true ↔ c ∈ cs) h
  exact ⟨fun hc => (hascii (hp c hc)).mp hc, fun hc => (hascii (hcs c hc)).mpr hc⟩

theorem isStart_iff_mem : isStart c = true ↔ c ∈ letters :=
  iff_mem_of_ascii (fun c h => isPart_ascii (by simp [isPart, h])) (by decide) (by decide +kernel) c

theorem isPart_iff_mem : isPart c = true ↔ c ∈ letters ++ digits :=
  iff_mem_of_ascii (fun _ h => isPart_ascii h) (by decide) (by decide +kernel) c

/-- The names are what the expression matches. -/
theorem inGrammar_iff : InGrammar s ↔ IsIdentifier s := by
  rw [InGrammar, grammar, RegularExpression.matches'_mul, RegularExpression.matches'_star,
    Language.mem_mul, IsIdentifier]
  constructor
  · rintro ⟨first, hfirst, rest, hrest, hs⟩
    obtain ⟨c, hc, rfl⟩ := mem_oneOf.mp hfirst
    obtain ⟨ws, rfl, hws⟩ := Language.mem_kstar.mp hrest
    refine ⟨c, ws.flatten, hs.symm, isStart_iff_mem.mpr hc, fun d hd => ?_⟩
    obtain ⟨w, hw, hdw⟩ := List.mem_flatten.mp hd
    obtain ⟨e, he, rfl⟩ := mem_oneOf.mp (hws w hw)
    rw [List.mem_singleton.mp hdw]
    exact isPart_iff_mem.mpr he
  · rintro ⟨c, cs, hs, hc, hcs⟩
    refine ⟨[c], mem_oneOf.mpr ⟨c, isStart_iff_mem.mp hc, rfl⟩, cs, ?_, hs.symm⟩
    have hcut : cs = (cs.map fun d => [d]).flatten := by
      rw [← List.flatMap_def, List.flatMap_singleton']
    refine Language.mem_kstar.mpr ⟨cs.map fun d => [d], hcut, fun w hw => ?_⟩
    obtain ⟨d, hd, rfl⟩ := List.mem_map.mp hw
    exact mem_oneOf.mpr ⟨d, isPart_iff_mem.mp (hcs d hd), rfl⟩

/-! ## Normal forms -/

theorem normalize_eq_self (h : IsIdentifier s) : normalize s = s := by
  have hvisible : ∀ c ∈ s.toList, isBlank c = false := fun c hc => (isPart_plain (h.isPart hc)).1
  have hlower : ∀ c ∈ s.toList, c.toNat < 192 ∧ c.isUpper = false := fun c hc =>
    ⟨(isPart_ascii (h.isPart hc)).trans (by decide), (isPart_plain (h.isPart hc)).2⟩
  obtain ⟨c, cs, hs, -⟩ := h
  have hwords : words s.toList = [s.toList] := by
    rw [words, pieces_eq_singleton hvisible]
    simp [hs]
  rw [normalize, trim_eq_self hvisible, lower_eq_self hlower, hwords]
  simp

/-- What is left of a character of a text in its normal form. -/
theorem mem_normalize (hc : c ∈ s.toList) (hblank : isBlank c = false) :
    ∃ before after, ∀ d ∈ lowerAt before c after, isBlank d = false →
      d ∈ (normalize s).toList := by
  obtain ⟨before, after, hsub⟩ := lowerAt_subset_lower (mem_trim hc hblank)
  refine ⟨before, after, fun d hd hdblank => ?_⟩
  obtain ⟨w, hw, hdw⟩ := exists_mem_words (hsub hd) hdblank
  rw [normalize, String.toList_ofList]
  exact (infix_intercalate_of_mem hw).subset hdw

/-- Nothing is left of a text if and only if it is white space. -/
theorem normalize_eq_empty_iff : normalize s = "" ↔ ∀ c ∈ s.toList, isBlank c = true := by
  constructor
  · intro h c hc
    by_contra hblank
    rw [Bool.not_eq_true] at hblank
    obtain ⟨before, after, hleft⟩ := mem_normalize hc hblank
    obtain ⟨d, hd, hdblank⟩ := exists_mem_lowerAt hblank before after
    simpa [h] using hleft d hd hdblank
  · intro h
    have hnone : ∀ c ∈ ([] : List Char), isBlank c = true := by simp
    have htrim : trim s.toList = trim [] := by simpa using trim_surrounded h hnone []
    rw [normalize, htrim]
    rfl

/-! ## What is accepted -/

theorem check_eq_ok_iff {name t : String} : check name = .ok t ↔ t = name ∧ InGrammar t := by
  rw [inGrammar_iff]
  constructor
  · intro h
    obtain ⟨rfl, hname⟩ := check_ok h
    exact ⟨rfl, hname⟩
  · rintro ⟨rfl, c, cs, hname, hc, hcs⟩
    have hnone : cs.find? (fun c => !isPart c) = none := by
      rw [List.find?_eq_none]
      intro d hd
      simp [hcs d hd]
    simp [check, hname, hc, hnone]

theorem check_isOk : (check s).isOk = true ↔ IsIdentifier s := by
  constructor
  · intro h
    cases hs : check s with
    | error e => simp [hs, Except.isOk, Except.toBool] at h
    | ok t => exact (check_ok hs).2
  · intro h
    rw [check_eq_ok_iff.mpr ⟨rfl, inGrammar_iff.mpr h⟩]
    rfl

instance decidableIsIdentifier (s : String) : Decidable (IsIdentifier s) :=
  decidable_of_iff _ check_isOk

theorem column_eq_ok_iff {t : String} : column s = .ok t ↔ t = normalize s ∧ InGrammar t :=
  check_eq_ok_iff

theorem table_eq_ok_iff {tablePrefix t : String} :
    table tablePrefix s = .ok t ↔ t = tablePrefix ++ normalize s ∧ InGrammar t :=
  check_eq_ok_iff

theorem column_of_column {t : String} (h : column s = .ok t) : column t = .ok t := by
  have hname := (column_eq_ok_iff.mp h).2
  exact column_eq_ok_iff.mpr ⟨(normalize_eq_self (inGrammar_iff.mp hname)).symm, hname⟩

/-- A point stays in the normal form, where the check finds it. -/
theorem point_notMem {t : String} (h : column s = .ok t) : '.' ∉ s.toList := by
  intro hpoint
  obtain ⟨before, after, hleft⟩ := mem_normalize hpoint (by decide)
  rw [lowerAt_eq_self (by decide) (by decide)] at hleft
  obtain ⟨rfl, hname⟩ := column_eq_ok_iff.mp h
  have hpart := (inGrammar_iff.mp hname).isPart (hleft '.' (by simp) (by decide))
  exact absurd hpart (by decide)

/-! ## References -/

/-- What a text refers to: a column, or a column of the table that it names before its only
point. -/
inductive Refers (tablePrefix : String) : String → ColumnRef → Prop
  | plain {s c : String} (hs : '.' ∉ s.toList) (hc : column s = .ok c) :
      Refers tablePrefix s ⟨none, c⟩
  | qualified {before after t c : String} (hbefore : '.' ∉ before.toList)
      (hafter : '.' ∉ after.toList) (ht : table tablePrefix before = .ok t)
      (hc : column after = .ok c) : Refers tablePrefix (before ++ "." ++ after) ⟨some t, c⟩

variable {tablePrefix before : String} {r : ColumnRef} {e : Error}

theorem ne_point {cs : List Char} (h : '.' ∉ cs) : ∀ c ∈ cs, (c != '.') = true := by
  intro c hc
  rw [bne_iff_ne]
  exact ne_of_mem_of_not_mem hc h

theorem parse_plain (h : '.' ∉ s.toList) :
    ColumnRef.parse tablePrefix s = (column s).map fun c => ⟨none, c⟩ := by
  have hnone : s.toList.dropWhile (· != '.') = [] := by
    simpa using dropWhile_append (ne_point h) (stops_nil _)
  simp only [ColumnRef.parse, hnone, bind, Except.bind, pure, Except.pure]
  cases column s <;> rfl

theorem parse_qualified (h : '.' ∉ before.toList) (after : String) :
    ColumnRef.parse tablePrefix (before ++ "." ++ after) =
      (table tablePrefix before).bind fun t => (column after).map fun c => ⟨some t, c⟩ := by
  have hcut : (before ++ "." ++ after).toList = before.toList ++ '.' :: after.toList := by simp
  have hstop : Stops (· != '.') ('.' :: after.toList) := stops_cons (by decide) _
  simp only [ColumnRef.parse, hcut, takeWhile_append (ne_point h) hstop,
    dropWhile_append (ne_point h) hstop, String.ofList_toList, bind, Except.bind, pure,
    Except.pure]
  cases table tablePrefix before with
  | error e => rfl
  | ok t => cases column after <;> rfl

/-- A text has no point, or it is cut at the first. -/
theorem pointed_cases (s : String) :
    '.' ∉ s.toList ∨ ∃ before after : String, s = before ++ "." ++ after ∧ '.' ∉ before.toList := by
  by_cases h : '.' ∈ s.toList
  · obtain ⟨front, back, hcut, hfront⟩ := List.eq_append_cons_of_mem h
    refine Or.inr ⟨String.ofList front, String.ofList back, ?_, by simpa using hfront⟩
    rw [← String.toList_inj, hcut]
    simp
  · exact Or.inl h

theorem parse_eq_ok_iff : ColumnRef.parse tablePrefix s = .ok r ↔ Refers tablePrefix s r := by
  constructor
  · intro h
    rcases pointed_cases s with hs | ⟨before, after, rfl, hbefore⟩
    · rw [parse_plain hs, map_eq_ok] at h
      obtain ⟨c, hc, rfl⟩ := h
      exact .plain hs hc
    · rw [parse_qualified hbefore, bind_eq_ok] at h
      obtain ⟨t, ht, h⟩ := h
      obtain ⟨c, hc, rfl⟩ := map_eq_ok.mp h
      exact .qualified hbefore (point_notMem hc) ht hc
  · rintro (⟨hs, hc⟩ | ⟨hbefore, -, ht, hc⟩)
    · rw [parse_plain hs, hc]
      rfl
    · rw [parse_qualified hbefore, ht, hc]
      rfl

theorem parse_error (h : ColumnRef.parse tablePrefix s = .error e) : e.isUsage = true := by
  rcases pointed_cases s with hs | ⟨before, after, rfl, hbefore⟩
  · rw [parse_plain hs, map_eq_error] at h
    exact column_error h
  · rw [parse_qualified hbefore, bind_eq_error] at h
    rcases h with ht | ⟨t, -, h⟩
    · exact table_error ht
    · exact column_error (map_eq_error.mp h)

/-- Columns, tables and references are accepted by the grammar of their normal forms, and all that
is refused is a misuse. Behind a prefix that is a name for itself, a text of white space names the
table that is called as the prefix. -/
theorem accepted_iff (tablePrefix s : String) :
    (∀ c, column s = .ok c ↔ c = normalize s ∧ InGrammar c) ∧
    (∀ c, column s = .ok c → column c = .ok c) ∧
    (∀ t, table tablePrefix s = .ok t ↔ t = tablePrefix ++ normalize s ∧ InGrammar t) ∧
    ((∀ c ∈ s.toList, isBlank c = true) →
      ∀ t, table tablePrefix s = .ok t ↔ t = tablePrefix ∧ InGrammar t) ∧
    (∀ r, ColumnRef.parse tablePrefix s = .ok r ↔ Refers tablePrefix s r) ∧
    (∀ e, column s = .error e ∨ table tablePrefix s = .error e ∨
      ColumnRef.parse tablePrefix s = .error e → e.isUsage = true) := by
  refine ⟨fun c => column_eq_ok_iff, fun c => column_of_column, fun t => table_eq_ok_iff,
    fun hblank t => ?_, fun r => parse_eq_ok_iff, ?_⟩
  · rw [table_eq_ok_iff, normalize_eq_empty_iff.mpr hblank, String.append_empty]
  · rintro e (h | h | h)
    · exact column_error h
    · exact table_error h
    · exact parse_error h

theorem prefix_accepted : (∀ c ∈ "  ".toList, isBlank c = true) ∧
    table "app_" "  " = .ok "app_" ∧ ∀ c, column "  " ≠ .ok c := by
  have hblank : ∀ c ∈ "  ".toList, isBlank c = true := by decide
  have happ : InGrammar "app_" :=
    inGrammar_iff.mpr ⟨'a', "pp_".toList, rfl, by decide, by decide⟩
  refine ⟨hblank, ((accepted_iff "app_" "  ").2.2.2.1 hblank "app_").mpr ⟨rfl, happ⟩, ?_⟩
  intro c hc
  obtain ⟨rfl, hname⟩ := ((accepted_iff "app_" "  ").1 c).mp hc
  rw [normalize_eq_empty_iff.mpr hblank] at hname
  obtain ⟨d, ds, hempty, -⟩ := inGrammar_iff.mp hname
  cases hempty

end Identifier

end QueryLoom
