import QueryLoom.Client
import QueryLoom.Proofs.Cache.Key

/-!
# The kind of a statement under a key

A statement is known by its first keyword. White space is collapsed around and behind the keyword
and never within it, so the collapsed statement has the same keyword, and so has every statement
with more white space or opening parentheses in front, or in other letter case. The text under a
cache key begins with the collapsed statement, so it determines the kind: statements with one key
are stored both or neither, and are both fetched or both executed.
-/

set_option autoImplicit false

namespace QueryLoom

open Text (Position collapseFrom isBlank isAsciiLetter)

def StatementKind.isLead (c : Char) : Bool := isBlank c || c == '('

def SameUpToCase (sql sql' : String) : Prop :=
  sql.toList.map Char.toUpper = sql'.toList.map Char.toUpper

instance decidableSameUpToCase (sql sql' : String) : Decidable (SameUpToCase sql sql') :=
  decEq (sql.toList.map Char.toUpper) (sql'.toList.map Char.toUpper)

namespace Client

def Fetches (sql : String) : Prop := ∀ (σ : Type) (client : Client σ) (b : Bindings),
  client.run sql b = Executed.rows <$> client.fetch sql b

def Executes (sql : String) : Prop := ∀ (σ : Type) (client : Client σ) (b : Bindings),
  client.run sql b = Executed.affected <$> client.execute sql b

end Client

namespace StatementKind

variable {cs ds : List Char} {c : Char} {sql sql' : String} {b b' : Bindings}

/-! ## The keyword -/

theorem keyword_eq (cs : List Char) :
    keyword cs = ((cs.dropWhile isLead).takeWhile isAsciiLetter).map Char.toUpper := rfl

theorem keyword_append_lead (h : ∀ c ∈ ds, isLead c = true) (cs : List Char) :
    keyword (ds ++ cs) = keyword cs := by
  rw [keyword_eq, keyword_eq, List.dropWhile_append_of_pos h]

theorem keyword_cons_lead (h : isLead c = true) (cs : List Char) :
    keyword (c :: cs) = keyword cs := by
  rw [keyword_eq, keyword_eq, List.dropWhile_cons_of_pos h]

theorem keyword_cons (h : isLead c = false) (cs : List Char) :
    keyword (c :: cs) = ((c :: cs).takeWhile isAsciiLetter).map Char.toUpper := by
  rw [keyword_eq, List.dropWhile_cons_of_neg (by simp [h])]

theorem isLead_of_isAlpha (h : c.isAlpha = true) : isLead c = false := by
  rw [Text.isAlpha_eq, Bool.or_eq_true, Text.isUpper_iff, Text.isLower_iff] at h
  have hparen : '('.toNat = 40 := rfl
  have hne : c ≠ '(' := by
    rintro rfl
    omega
  simp [isLead, isBlank, hne]
  omega

/-! ## White space -/

theorem blank_not_letter (c : Char) (h : isBlank c = true) : isAsciiLetter c = false := by
  by_contra hletter
  rw [Bool.not_eq_false] at hletter
  have hlead := isLead_of_isAlpha hletter
  simp [isLead, h] at hlead

/-- A character that is not blank is written as it is, with at most a space in front of it. -/
theorem keyword_collapseFrom_cons (h : isBlank c = false) (p : Position) (cs : List Char) :
    keyword (collapseFrom isBlank ' ' p (c :: cs)) =
      keyword (c :: collapseFrom isBlank ' ' .inside cs) := by
  have hspace : isLead ' ' = true := by decide
  cases p with
  | before | inside => simp [collapseFrom, h]
  | after => simp [collapseFrom, h, keyword_cons_lead hspace]

/-- The scan is before the keyword, where all white space is passed over, or it is in the keyword,
which ends in the scan where it ends in the text. -/
theorem keyword_collapseFrom (p : Position) (cs : List Char) :
    keyword (collapseFrom isBlank ' ' p cs) = keyword cs := by
  induction cs generalizing p with
  | nil => rw [Text.collapseFrom_nil]
  | cons c cs ih =>
    by_cases hblank : isBlank c = true
    · rw [keyword_cons_lead (by simp [isLead, hblank])]
      cases p <;> simpa [collapseFrom, hblank] using ih _
    · rw [Bool.not_eq_true] at hblank
      rw [keyword_collapseFrom_cons hblank]
      by_cases hlead : isLead c = true
      · rw [keyword_cons_lead hlead, keyword_cons_lead hlead, ih]
      · rw [Bool.not_eq_true] at hlead
        have hstretch : (collapseFrom isBlank ' ' .inside (c :: cs)).takeWhile isAsciiLetter =
            (c :: cs).takeWhile isAsciiLetter :=
          (Text.takeWhile_collapseFrom blank_not_letter (by decide) _).1
        rw [keyword_cons hlead, keyword_cons hlead, ← hstretch]
        simp [collapseFrom, hblank]

/-! ## Letter case -/

theorem isLead_toUpper (c : Char) : isLead c.toUpper = isLead c := by
  rcases Text.toUpper_cases c with ⟨-, hsame⟩ | ⟨hlower, -⟩
  · rw [hsame]
  · have halpha : c.isAlpha = true := by rw [Text.isAlpha_eq, hlower, Bool.or_true]
    rw [isLead_of_isAlpha halpha, isLead_of_isAlpha ((Text.isAlpha_toUpper c).trans halpha)]

theorem keyword_map_toUpper (cs : List Char) : keyword (cs.map Char.toUpper) = keyword cs := by
  have hlead : isLead ∘ Char.toUpper = isLead := funext isLead_toUpper
  have hletter : isAsciiLetter ∘ Char.toUpper = isAsciiLetter :=
    funext Text.isAlpha_toUpper
  have htwice : Char.toUpper ∘ Char.toUpper = Char.toUpper :=
    funext Text.toUpper_toUpper
  rw [keyword_eq, keyword_eq, List.dropWhile_map, hlead, List.takeWhile_map, hletter, List.map_map,
    htwice]

/-! ## Statements -/

theorem detect_collapse (sql : String) :
    detect (String.ofList (Text.collapse sql.toList)) = detect sql := by
  rw [detect, detect, String.toList_ofList, Text.collapse_eq_collapseFrom, keyword_collapseFrom]

theorem detect_append_lead {front : String}
    (h : ∀ c ∈ front.toList, isBlank c = true ∨ c = '(') (sql : String) :
    detect (front ++ sql) = detect sql := by
  rw [detect, detect, String.toList_append,
    keyword_append_lead fun c hc => by simpa [isLead] using h c hc]

theorem detect_of_sameUpToCase (h : SameUpToCase sql sql') : detect sql' = detect sql := by
  rw [detect, detect, ← keyword_map_toUpper, ← h, keyword_map_toUpper]

/-- The text under a key begins with the collapsed statement. -/
theorem detect_of_keyText (h : Cache.keyText sql b = Cache.keyText sql' b') :
    detect sql' = detect sql := by
  have hcollapsed := ((Cache.keyText_eq_iff sql sql' b b').mp h).1
  rw [← detect_collapse sql', ← hcollapsed, detect_collapse]

theorem fetches_of_returnsRows (h : (detect sql).returnsRows = true) : Client.Fetches sql := by
  intro σ client b
  simp [Client.run, h]

theorem executes_of_not_returnsRows (h : (detect sql).returnsRows = false) :
    Client.Executes sql := by
  intro σ client b
  simp [Client.run, h]

/-- A statement keeps its kind when its white space is collapsed, which is done after one time, when
white space and opening parentheses come in front of it, and in any letter case. Where the digest
has no collision, a statement with the same key is of the same kind; so both are stored or neither
is, and every client fetches the rows of both or executes both. -/
theorem detect_under_key (sql : String) :
    detect (String.ofList (Text.collapse sql.toList)) = detect sql ∧
      Text.collapse (Text.collapse sql.toList) = Text.collapse sql.toList ∧
      (∀ front : String, (∀ c ∈ front.toList, isBlank c = true ∨ c = '(') →
        detect (front ++ sql) = detect sql) ∧
      (∀ sql', SameUpToCase sql sql' → detect sql' = detect sql) ∧
      ∀ (sql' : String) (b b' : Bindings),
        (Blake3.hexDigest (Text.Utf8.encode (Cache.keyText sql b)) =
          Blake3.hexDigest (Text.Utf8.encode (Cache.keyText sql' b')) →
          Text.Utf8.encode (Cache.keyText sql b) = Text.Utf8.encode (Cache.keyText sql' b')) →
        Cache.key sql b = Cache.key sql' b' →
        detect sql' = detect sql ∧ (detect sql').isCacheable = (detect sql).isCacheable ∧
          if (detect sql).returnsRows then Client.Fetches sql ∧ Client.Fetches sql'
          else Client.Executes sql ∧ Client.Executes sql' := by
  refine ⟨detect_collapse sql, Text.collapse_collapse _, fun front h => detect_append_lead h sql,
    fun sql' => detect_of_sameUpToCase, fun sql' b b' hcollision hkey => ?_⟩
  have hkind : detect sql' = detect sql :=
    detect_of_keyText (Text.Utf8.encode_injective (hcollision hkey))
  refine ⟨hkind, by rw [hkind], ?_⟩
  by_cases hrows : (detect sql).returnsRows = true
  · rw [if_pos hrows]
    exact ⟨fetches_of_returnsRows hrows, fetches_of_returnsRows (by rwa [hkind])⟩
  · rw [if_neg hrows]
    rw [Bool.not_eq_true] at hrows
    exact ⟨executes_of_not_returnsRows hrows, executes_of_not_returnsRows (by rwa [hkind])⟩

/-- Spaced and in capitals, in parentheses, or under the same key: a selection stays one. -/
theorem selection_under_key :
    detect "((\u3000 select id from users" = .select ∧
      detect "Select ID FROM Users" = .select ∧
      Cache.key "select id from users" {} = Cache.key "\tselect\nid  from users " {} ∧
      (detect "\tselect\nid  from users ").isCacheable = true ∧
      Client.Fetches "\tselect\nid  from users " := by
  have hkind : detect "select id from users" = .select := by decide
  have htext : Cache.keyText "select id from users" {} =
      Cache.keyText "\tselect\nid  from users " {} := by decide
  have hkey : Cache.key "select id from users" {} = Cache.key "\tselect\nid  from users " {} := by
    rw [Cache.key, Cache.key, htext]
  obtain ⟨-, -, hlead, hcase, hshared⟩ := detect_under_key "select id from users"
  obtain ⟨-, hcacheable, hrun⟩ := hshared _ {} {} (fun _ => by rw [htext]) hkey
  rw [hkind] at hlead hcase hcacheable hrun
  exact ⟨hlead "((\u3000 " (by decide), hcase _ (by decide), hkey, hcacheable, hrun.2⟩

end StatementKind

end QueryLoom
