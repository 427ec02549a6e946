import QueryLoom.Proofs.Placeholder
import QueryLoom.Proofs.Text.Collapse
import QueryLoom.Text.Case

/-!
# Tokens of a condition

A condition is read token by token: words, among them the names of columns with or without their
tables, numbers, symbols, placeholders and parentheses. Each token is as long as it can be, and
white space stands between tokens only. Keywords are read in any case. No word is reserved; the
grammar says where a keyword stands.
-/

set_option autoImplicit false

namespace QueryLoom.Condition

open Placeholder hiding lex Token

inductive Keyword where
  | where_
  | and
  | or
  | not
  | like
  | is
  | null
  deriving DecidableEq, Repr

namespace Keyword

def all : List Keyword := [.where_, .and, .or, .not, .like, .is, .null]

def text : Keyword → String
  | .where_ => "WHERE"
  | .and => "AND"
  | .or => "OR"
  | .not => "NOT"
  | .like => "LIKE"
  | .is => "IS"
  | .null => "NULL"

end Keyword

inductive Token where
  | word (s : String)
  | number (n : Nat)
  | symbol (s : String)
  | placeholder (k : String)
  | opening
  | closing
  | stray (c : Char)
  deriving DecidableEq, Repr

def Token.keyword? : Token → Option Keyword
  | .word s => Keyword.all.find? fun k => k.text == Text.asciiUpper s
  | _ => none

def isWordPart (c : Char) : Bool := isNamePart c || c == '.'

def isSymbol (c : Char) : Bool := c == '=' || c == '<' || c == '>' || c == '!'

def lex : List Char → List Token
  | [] => []
  | c :: cs =>
    if Text.isBlank c then lex cs
    else if c = '(' then .opening :: lex cs
    else if c = ')' then .closing :: lex cs
    else if c = ':' then
      .placeholder (String.ofList (cs.takeWhile isNamePart)) :: lex (cs.dropWhile isNamePart)
    else if isNameStart c then
      .word (String.ofList (c :: cs.takeWhile isWordPart)) :: lex (cs.dropWhile isWordPart)
    else if c.isDigit then
      .number (Nat.ofDigitChars 10 (c :: cs.takeWhile Char.isDigit) 0) ::
        lex (cs.dropWhile Char.isDigit)
    else if isSymbol c then
      .symbol (String.ofList (c :: cs.takeWhile isSymbol)) :: lex (cs.dropWhile isSymbol)
    else .stray c :: lex cs
termination_by cs => cs.length
decreasing_by
  all_goals simp only [List.length_cons]
  · omega
  · omega
  · omega
  · have := Placeholder.length_dropWhile_le isNamePart cs
    omega
  · have := Placeholder.length_dropWhile_le isWordPart cs
    omega
  · have := Placeholder.length_dropWhile_le Char.isDigit cs
    omega
  · have := Placeholder.length_dropWhile_le isSymbol cs
    omega
  · omega

/-! ## One token after the other -/

open Text

@[simp] theorem lex_nil : lex [] = [] := by rw [lex.eq_def]

-- The cases are taken from `lex.eq_def`: Lean is slow to find the equation of the second one.
theorem lex_blank {c : Char} (h : isBlank c = true) (cs : List Char) : lex (c :: cs) = lex cs := by
  rw [lex.eq_def]
  dsimp only
  rw [if_pos h]

@[simp] theorem lex_space (cs : List Char) : lex (' ' :: cs) = lex cs := lex_blank (by decide) cs

@[simp] theorem lex_opening (cs : List Char) : lex ('(' :: cs) = .opening :: lex cs := by
  rw [lex.eq_def]
  dsimp only
  rw [if_neg (by decide), if_pos rfl]

@[simp] theorem lex_closing (cs : List Char) : lex (')' :: cs) = .closing :: lex cs := by
  rw [lex.eq_def]
  dsimp only
  rw [if_neg (by decide), if_neg (by decide), if_pos rfl]

theorem lex_placeholder {k : String} (hk : ∀ c ∈ k.toList, isNamePart c = true)
    {rest : List Char} (hr : Stops isNamePart rest) :
    lex (':' :: (k.toList ++ rest)) = .placeholder k :: lex rest := by
  rw [lex.eq_def]
  dsimp only
  rw [if_neg (by decide), if_neg (by decide), if_neg (by decide), if_pos rfl,
    takeWhile_append hk hr, dropWhile_append hk hr, String.ofList_toList]

/-- A part of a name is no blank and no token that is one character. -/
theorem isolated_of_isNamePart {c : Char} (h : isNamePart c = true) :
    isBlank c = false ∧ c ≠ '(' ∧ c ≠ ')' ∧ c ≠ ':' := by
  have hne : ∀ d, isNamePart d = false → c ≠ d := by
    rintro d hd rfl
    rw [h] at hd
    cases hd
  exact ⟨isBlank_of_isNamePart h, hne '(' (by decide), hne ')' (by decide), hne ':' (by decide)⟩

def IsWord (s : String) : Prop :=
  ∃ c cs, s.toList = c :: cs ∧ isNameStart c = true ∧ ∀ d ∈ cs, isWordPart d = true

theorem lex_word {s : String} (hs : IsWord s) {rest : List Char} (hr : Stops isWordPart rest) :
    lex (s.toList ++ rest) = .word s :: lex rest := by
  obtain ⟨c, cs, hcs, hc, hpart⟩ := hs
  obtain ⟨hblank, hopen, hclose, hcolon⟩ := isolated_of_isNamePart (isNamePart_of_isNameStart hc)
  rw [hcs, List.cons_append, lex.eq_def]
  dsimp only
  rw [if_neg (by simp [hblank]), if_neg hopen, if_neg hclose, if_neg hcolon, if_pos hc,
    takeWhile_append hpart hr, dropWhile_append hpart hr, ← hcs, String.ofList_toList]

theorem lex_number {c : Char} {cs : List Char} (hc : c.isDigit = true)
    (hcs : ∀ d ∈ cs, d.isDigit = true) {rest : List Char} (hr : Stops Char.isDigit rest) :
    lex (c :: cs ++ rest) = .number (Nat.ofDigitChars 10 (c :: cs) 0) :: lex rest := by
  obtain ⟨hblank, hopen, hclose, hcolon⟩ := isolated_of_isNamePart (isNamePart_of_isDigit hc)
  have hstart : isNameStart c = false := isNameStart_of_isDigit hc
  rw [List.cons_append, lex.eq_def]
  dsimp only
  rw [if_neg (by simp [hblank]), if_neg hopen, if_neg hclose, if_neg hcolon,
    if_neg (by simp [hstart]), if_pos hc, takeWhile_append hcs hr, dropWhile_append hcs hr]

theorem lex_symbol {s : String} (hs : s.toList ≠ []) (hsymbol : ∀ c ∈ s.toList, isSymbol c = true)
    {rest : List Char} (hr : Stops isSymbol rest) :
    lex (s.toList ++ rest) = .symbol s :: lex rest := by
  obtain ⟨c, cs, hcs⟩ := List.exists_cons_of_ne_nil hs
  rw [hcs] at hsymbol
  have hc : isSymbol c = true := hsymbol c (by simp)
  have hpart : ∀ d ∈ cs, isSymbol d = true := fun d hd => hsymbol d (List.mem_cons_of_mem _ hd)
  have hother : isBlank c = false ∧ c ≠ '(' ∧ c ≠ ')' ∧ c ≠ ':' ∧ isNameStart c = false ∧
      c.isDigit = false := by
    simp only [isSymbol, Bool.or_eq_true, beq_iff_eq] at hc
    rcases hc with ((rfl | rfl) | rfl) | rfl <;> decide
  obtain ⟨hblank, hopen, hclose, hcolon, hstart, hdigit⟩ := hother
  rw [hcs, List.cons_append, lex.eq_def]
  dsimp only
  rw [if_neg (by simp [hblank]), if_neg hopen, if_neg hclose, if_neg hcolon,
    if_neg (by simp [hstart]), if_neg (by simp [hdigit]), if_pos hc, takeWhile_append hpart hr,
    dropWhile_append hpart hr, ← hcs, String.ofList_toList]

@[simp] theorem lex_comma (cs : List Char) : lex (',' :: cs) = .stray ',' :: lex cs := by
  rw [lex.eq_def]
  dsimp only
  rw [if_neg (by decide), if_neg (by decide), if_neg (by decide), if_neg (by decide),
    if_neg (by decide), if_neg (by decide), if_neg (by decide)]

@[simp] theorem lex_star (cs : List Char) : lex ('*' :: cs) = .stray '*' :: lex cs := by
  rw [lex.eq_def]
  dsimp only
  rw [if_neg (by decide), if_neg (by decide), if_neg (by decide), if_neg (by decide),
    if_neg (by decide), if_neg (by decide), if_neg (by decide)]

/-! ## White space -/

/-- No token goes on behind a space. -/
theorem lex_append_space (as bs : List Char) : lex (as ++ ' ' :: bs) = lex as ++ lex bs := by
  induction hn : as.length using Nat.strongRecOn generalizing as with
  | ind n ih =>
    subst hn
    cases as with
    | nil => simp
    | cons c cs =>
      have hshorter : ∀ ds, ds.length ≤ cs.length → lex (ds ++ ' ' :: bs) = lex ds ++ lex bs :=
        fun ds hds => ih ds.length (Nat.lt_succ_of_le hds) ds rfl
      have hskip : ∀ part : Char → Bool, part ' ' = false →
          (cs ++ ' ' :: bs).takeWhile part = cs.takeWhile part ∧
            lex ((cs ++ ' ' :: bs).dropWhile part) = lex (cs.dropWhile part) ++ lex bs := by
        intro part hpart
        obtain ⟨htake, hdrop⟩ := span_append_cons hpart cs bs
        rw [htake, hdrop]
        exact ⟨rfl, hshorter _ (Placeholder.length_dropWhile_le part cs)⟩
      obtain ⟨hname, hname'⟩ := hskip isNamePart (by decide)
      obtain ⟨hword, hword'⟩ := hskip isWordPart (by decide)
      obtain ⟨hdigit, hdigit'⟩ := hskip Char.isDigit (by decide)
      obtain ⟨hsymbol, hsymbol'⟩ := hskip isSymbol (by decide)
      rw [List.cons_append, lex.eq_def, lex.eq_def (c :: cs)]
      simp only [hname, hname', hword, hword', hdigit, hdigit', hsymbol, hsymbol',
        hshorter cs (Nat.le_refl _)]
      repeat' split
      all_goals rfl

theorem lex_intercalate (ss : List String) :
    lex (" ".intercalate ss).toList = ss.flatMap fun s => lex s.toList := by
  induction ss with
  | nil => simp
  | cons s ss ih =>
    cases ss with
    | nil => simp
    | cons s' ss =>
      have htext : (" ".intercalate (s :: s' :: ss)).toList =
          s.toList ++ ' ' :: (" ".intercalate (s' :: ss)).toList := by
        simp [String.intercalate_cons_cons]
      rw [htext, lex_append_space, ih]
      rfl

/-- Characters that go on with a token are no blanks. -/
theorem isPart_of_isBlank {c : Char} (h : isBlank c = true) :
    isNamePart c = false ∧ isWordPart c = false ∧ c.isDigit = false ∧ isSymbol c = false := by
  have hname : isNamePart c = false := by
    rw [Bool.eq_false_iff]
    intro hpart
    rw [isBlank_of_isNamePart hpart] at h
    cases h
  have hne : ∀ d : Char, isBlank d = false → c ≠ d := by
    rintro d hd rfl
    rw [h] at hd
    cases hd
  refine ⟨hname, ?_, ?_, ?_⟩
  · simp [isWordPart, hname, hne '.' (by decide)]
  · rw [Bool.eq_false_iff]
    intro hdigit
    rw [isNamePart_of_isDigit hdigit] at hname
    cases hname
  · simp [isSymbol, hne '=' (by decide), hne '<' (by decide), hne '>' (by decide),
      hne '!' (by decide)]

/-- Collapsing white space changes no token. -/
theorem lex_collapseFrom (p : Position) (cs : List Char) :
    lex (collapseFrom isBlank ' ' p cs) = lex cs := by
  induction hn : cs.length using Nat.strongRecOn generalizing p cs with
  | ind n ih =>
    subst hn
    cases cs with
    | nil => simp
    | cons c cs =>
      have hshorter : ∀ q ds, ds.length ≤ cs.length →
          lex (collapseFrom isBlank ' ' q ds) = lex ds := fun q ds hds =>
        ih ds.length (Nat.lt_succ_of_le hds) q ds rfl
      by_cases hc : isBlank c = true
      · cases p <;> simp [collapseFrom, hc, lex_blank hc, hshorter]
      · -- What a token takes from the text and what it leaves are the same after the scan.
        have hskip : ∀ part : Char → Bool, (∀ d, isBlank d = true → part d = false) →
            (collapseFrom isBlank ' ' .inside cs).takeWhile part = cs.takeWhile part ∧
              lex ((collapseFrom isBlank ' ' .inside cs).dropWhile part) =
                lex (cs.dropWhile part) := by
          intro part hpart
          obtain ⟨htake, hdrop⟩ := takeWhile_collapseFrom hpart (hpart ' ' (by decide)) cs
          rw [htake, hdrop]
          exact ⟨rfl, hshorter _ _ (Placeholder.length_dropWhile_le part cs)⟩
        obtain ⟨hname, hname'⟩ := hskip isNamePart fun d hd => (isPart_of_isBlank hd).1
        obtain ⟨hword, hword'⟩ := hskip isWordPart fun d hd => (isPart_of_isBlank hd).2.1
        obtain ⟨hdigit, hdigit'⟩ := hskip Char.isDigit fun d hd => (isPart_of_isBlank hd).2.2.1
        obtain ⟨hsymbol, hsymbol'⟩ := hskip isSymbol fun d hd => (isPart_of_isBlank hd).2.2.2
        have htoken : lex (c :: collapseFrom isBlank ' ' .inside cs) = lex (c :: cs) := by
          rw [lex.eq_def, lex.eq_def (c :: cs)]
          simp only [hname, hname', hword, hword', hdigit, hdigit', hsymbol, hsymbol',
            hshorter _ cs (Nat.le_refl _)]
        cases p <;> simp [collapseFrom, hc, htoken]

theorem lex_collapse (cs : List Char) : lex (collapse cs) = lex cs := by
  rw [collapse_eq_collapseFrom, lex_collapseFrom]

end QueryLoom.Condition
