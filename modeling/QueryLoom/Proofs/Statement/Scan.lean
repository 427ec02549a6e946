import QueryLoom.Proofs.Chain.BindKey
import QueryLoom.Proofs.Identifier
import QueryLoom.Proofs.Placeholder.Lexing
import QueryLoom.Proofs.Statement.Template

/-!
# Scanning a filled template

A template is readable if its own text holds no colon and no quote but those of a cast and of a
comma in quotes, and if no hole is followed by a character that could be part of a name. The
scanner then ends each name where its hole ends, so it finds the names that were filled in and
nothing else.
-/

set_option autoImplicit false

namespace QueryLoom

open Placeholder

def IsPlain (cs : List Char) : Prop := ∀ c ∈ cs, c ≠ '\'' ∧ c ≠ '"' ∧ c ≠ ':'

instance (cs : List Char) : Decidable (IsPlain cs) :=
  inferInstanceAs (Decidable (∀ c ∈ cs, c ≠ '\'' ∧ c ≠ '"' ∧ c ≠ ':'))

theorem BindKey.IsKey.isName {k : String} (h : BindKey.IsKey k) : IsName k := by
  obtain ⟨c, cs, hk⟩ := List.exists_cons_of_ne_nil h.1
  have halpha : ∀ d ∈ c :: cs, d.isAlpha = true := fun d hd => h.2 d (hk ▸ hd)
  refine ⟨c, cs, hk, ?_, fun d hd => ?_⟩
  · simp [isNameStart, halpha c]
  · simp [isNamePart, Char.isAlphanum, halpha d (List.mem_cons_of_mem _ hd)]

theorem IsIdentifier.isName {s : String} (h : IsIdentifier s) : IsName s := by
  obtain ⟨c, cs, hs, hc, hcs⟩ := h
  refine ⟨c, cs, hs, ?_, fun d hd => ?_⟩
  · rcases (by simpa [Identifier.isStart] using hc : c = '_' ∨ c.isLower = true) with rfl | hl
    · decide
    · simp [isNameStart, Text.isAlpha_eq, hl]
  · rcases (Identifier.isPart_iff d).mp (hcs d hd) with rfl | hl | hd
    · decide
    · simp [isNamePart, Char.isAlphanum, Text.isAlpha_eq, hl]
    · simp [isNamePart, Char.isAlphanum, hd]

namespace Template

/-- No name goes on into the template. -/
def Guarded (t : Template) : Prop := ∀ c, t.head? = some (some c) → isNamePart c = false

inductive Readable : Template → Prop
  | nil : Readable []
  | plain {c : Char} {t : Template} (hc : IsPlain [c]) (ht : Readable t) : Readable (some c :: t)
  | hole {t : Template} (hg : Guarded t) (ht : Readable t) : Readable (none :: t)
  | cast {t : Template} (ht : Readable t) : Readable (some ':' :: some ':' :: t)
  | quotedComma {t : Template} (ht : Readable t) :
      Readable (some '\'' :: some ',' :: some '\'' :: t)

def named (t : Template) (ks : List String) : List Char := t.fill (ks.map fun k => ':' :: k.toList)

def numbered (t : Template) : List Char :=
  t.fill ((List.range t.holes).map fun i => '$' :: Nat.toDigits 10 (i + 1))

theorem isWord_of_isName {k : String} (h : IsName k) : IsWord (':' :: k.toList) := by
  refine ⟨by simp, fun d hd => ?_⟩
  rcases List.mem_cons.mp hd with rfl | hd
  · decide
  · exact isBlank_of_isNamePart (h.isNamePart d hd)

/-! ## The scanner on names and on plain text -/

theorem lex_plain {c : Char} (h : IsPlain [c]) (rest : List Char) :
    lex (c :: rest) = .other c :: lex rest := by
  obtain ⟨hq, hd, hcolon⟩ := h c (by simp)
  exact lex_other (fun hquote => hquote.elim hq hd) fun hc => absurd hc hcolon

theorem lex_quotedComma (rest : List Char) :
    lex ('\'' :: ',' :: '\'' :: rest) = .quoted ['\'', ',', '\''] :: lex rest :=
  have hcomma : '\'' ∉ [','] := by decide
  lex_closed (Or.inl rfl) hcomma rest

theorem lex_isName {k : String} (hk : IsName k) {rest : List Char}
    (hr : Text.Stops isNamePart rest) :
    lex (':' :: k.toList ++ rest) = .name k.toList :: lex rest := by
  obtain ⟨c, cs, hkc, hc, hcs⟩ := hk
  rw [hkc]
  exact lex_name hc hcs hr

theorem stops_named {t : Template} (hg : Guarded t) {ks : List String} (hn : ks.length = t.holes) :
    Text.Stops isNamePart (t.named ks) := by
  intro c hc
  cases t with
  | nil => simp [named, fill] at hc
  | cons x t =>
    cases x with
    | some d =>
      obtain rfl : d = c := by simpa [named, fill] using hc
      exact hg d rfl
    | none =>
      cases ks with
      | nil => simp at hn
      | cons k ks =>
        obtain rfl : ':' = c := by simpa [named, fill] using hc
        decide

/-- The names come back in order, and whatever numbers they get stand in the holes. -/
theorem lex_named {t : Template} (h : t.Readable) {ks : List String} (hn : ks.length = t.holes)
    (hk : ∀ k ∈ ks, IsName k) (order : List String) :
    (lex (t.named ks)).filterMap Token.name? = ks ∧
      (lex (t.named ks)).flatMap (Token.numbered order) =
        t.fill (ks.map fun k => '$' :: Nat.toDigits 10 (order.idxOf k + 1)) := by
  induction h generalizing ks with
  | nil =>
    rw [List.length_eq_zero_iff.mp hn]
    simp [named, fill, lex]
  | plain hc _ ih =>
    obtain ⟨hnames, hnumbers⟩ := ih (by simpa using hn) hk
    simp only [named, fill, lex_plain hc] at hnames hnumbers ⊢
    simp [List.filterMap_cons, Token.name?, Token.numbered, hnames, hnumbers]
  | @hole t hg _ ih =>
    cases ks with
    | nil => simp at hn
    | cons k ks =>
      have hn' : ks.length = t.holes := by simpa using hn
      obtain ⟨hnames, hnumbers⟩ := ih hn' fun j hj => hk j (List.mem_cons_of_mem _ hj)
      have hlex := lex_isName (hk k (by simp)) (stops_named hg hn')
      simp only [named, List.map_cons, fill] at hnames hnumbers hlex ⊢
      rw [hlex]
      simp [Token.name?, Token.numbered, hnames, hnumbers]
  | cast _ ih =>
    obtain ⟨hnames, hnumbers⟩ := ih (by simpa using hn) hk
    simp only [named, fill, lex_cast] at hnames hnumbers ⊢
    simp [List.filterMap_cons, Token.name?, Token.numbered, hnames, hnumbers]
  | quotedComma _ ih =>
    obtain ⟨hnames, hnumbers⟩ := ih (by simpa using hn) hk
    simp only [named, fill, lex_quotedComma] at hnames hnumbers ⊢
    simp [List.filterMap_cons, Token.name?, Token.numbered, hnames, hnumbers]

/-! ## Numbered statements -/

theorem foldl_distinct (seen ks : List String) :
    ks.foldl (fun seen n => if seen.contains n then seen else seen ++ [n]) seen =
      seen ++ (ks.filter fun n => !seen.contains n).eraseDups := by
  induction ks generalizing seen with
  | nil => simp
  | cons k ks ih =>
    rw [List.foldl_cons, ih]
    by_cases hk : k ∈ seen
    · simp [hk]
    · simp [hk, List.eraseDups_cons, List.filter_filter, Bool.beq_eq_decide_eq, Bool.and_comm]

/-- The names of a statement are its names without those that came before. -/
theorem names_eq (ts : List Token) : names ts = (ts.filterMap Token.name?).eraseDups := by
  rw [names, foldl_distinct, List.nil_append, List.filter_eq_self.mpr (by simp)]

theorem eraseDups_of_nodup {ks : List String} (h : ks.Nodup) : ks.eraseDups = ks := by
  induction ks with
  | nil => rfl
  | cons k ks ih =>
    obtain ⟨hk, hks⟩ := List.nodup_cons.mp h
    have hfilter : (ks.filter fun j => !j == k) = ks := by
      refine List.filter_eq_self.mpr fun j hj => ?_
      simpa using fun heq : j = k => hk (heq ▸ hj)
    rw [List.eraseDups_cons, hfilter, ih hks]

theorem map_idxOf {ks : List String} (h : ks.Nodup) {β : Type} (f : Nat → β) :
    (ks.map fun k => f (ks.idxOf k)) = (List.range ks.length).map f := by
  apply List.ext_getElem (by simp)
  intro i hi _
  simp only [List.length_map] at hi
  simp [List.Nodup.idxOf_getElem h i hi]

theorem mapM_value {b : Bindings} {ks : List String} {vs : List Value}
    (h : ks.map b.get? = vs.map some) : ks.mapM (value b) = .ok vs := by
  induction ks generalizing vs with
  | nil =>
    cases vs with
    | nil => rfl
    | cons v vs => simp at h
  | cons k ks ih =>
    cases vs with
    | nil => simp at h
    | cons v vs =>
      simp only [List.map_cons, List.cons.injEq] at h
      rw [List.mapM_cons, value, h.1, ih h.2]
      rfl

/-- A readable template filled with distinct names that are all bound is numbered from left to
right, and its parameters are the values of the names in that order. -/
theorem toPositional_named {t : Template} (ht : t.Readable) {ks : List String}
    (hn : ks.length = t.holes) (hk : ∀ k ∈ ks, IsName k) (hd : ks.Nodup) {b : Bindings}
    {vs : List Value} (hv : ks.map b.get? = vs.map some) :
    toPositional (String.ofList (t.named ks)) b = .ok ⟨String.ofList t.numbered, vs⟩ := by
  obtain ⟨hnames, hnumbers⟩ := lex_named ht hn hk ks
  have horder : names (lex (t.named ks)) = ks := by
    rw [names_eq, hnames, eraseDups_of_nodup hd]
  rw [map_idxOf hd fun i => '$' :: Nat.toDigits 10 (i + 1), hn] at hnumbers
  rw [toPositional, String.toList_ofList, horder, mapM_value hv, hnumbers]
  rfl

/-! ## How readable templates come about -/

/-- A text that may stand in front of every readable template. -/
def Neutral (s : String) : Prop := ∀ t : Template, t.Readable → (lit s ++ t).Readable

/-- A template that may stand in front of what no name goes on into. -/
def Closed (u : Template) : Prop := ∀ t : Template, t.Readable → t.Guarded → (u ++ t).Readable

theorem neutral_of_isPlain {s : String} (h : IsPlain s.toList) : Neutral s := by
  intro t ht
  unfold lit
  induction hs : s.toList generalizing s with
  | nil => exact ht
  | cons c cs ih =>
    rw [hs] at h
    refine .plain (fun d hd => h d (by simp at hd; simp [hd])) ?_
    have hcs : (String.ofList cs).toList = cs := String.toList_ofList
    simpa [hcs] using ih (s := String.ofList cs)
      (by rw [hcs]; exact fun d hd => h d (List.mem_cons_of_mem _ hd)) hcs

theorem Neutral.append {s s' : String} (h : Neutral s) (h' : Neutral s') : Neutral (s ++ s') := by
  intro t ht
  rw [lit_append, List.append_assoc]
  exact h _ (h' t ht)

theorem Closed.append {u v : Template} (hu : Closed u) (hv : Closed v)
    (hg : ∀ t : Template, t.Guarded → (v ++ t).Guarded) : Closed (u ++ v) := by
  intro t ht htg
  rw [List.append_assoc]
  exact hu _ (hv t ht htg) (hg t htg)

theorem Neutral.closed_append {s : String} (hs : Neutral s) {u : Template} (hu : Closed u) :
    Closed (lit s ++ u) := by
  intro t ht htg
  rw [List.append_assoc]
  exact hs _ (hu t ht htg)

theorem Neutral.closed {s : String} (hs : Neutral s) : Closed (lit s) := fun t ht _ => hs t ht

theorem closed_hole : Closed [none] := fun _ ht htg => .hole htg ht

def guards (s : String) : Bool := s.toList.head?.any fun c => !isNamePart c

theorem guarded_lit_append {s : String} (h : guards s = true) (t : Template) :
    (lit s ++ t).Guarded := by
  unfold guards at h
  unfold lit
  cases hs : s.toList with
  | nil => simp [hs] at h
  | cons c cs =>
    intro d hd
    obtain rfl : c = d := by simpa using hd
    simpa [hs] using h

theorem closed_intercalate {sep : String} (hsep : Neutral sep) (hg : guards sep = true)
    {ts : List Template} (h : ∀ t ∈ ts, Closed t) : Closed ((lit sep).intercalate ts) := by
  induction ts with
  | nil => exact fun _ ht _ => ht
  | cons t ts ih =>
    cases ts with
    | nil => simpa using h t (by simp)
    | cons u ts =>
      rw [List.intercalate_cons_cons, List.append_assoc]
      refine (h t (by simp)).append
        (hsep.closed_append (ih fun v hv => h v (List.mem_cons_of_mem _ hv))) fun v _ => ?_
      rw [List.append_assoc]
      exact guarded_lit_append hg _

theorem Closed.readable {u : Template} (hu : Closed u) : u.Readable := by
  simpa using hu [] .nil (by simp [Guarded])

/-! ## White space -/

theorem guarded_collapseFrom_inside {t : Template} (h : t.Guarded) :
    (t.collapseFrom .inside).Guarded := by
  intro c hc
  rcases Text.head?_collapseFrom_inside hc with hspace | hhead
  · cases hspace
    decide
  · exact h c hhead

theorem readable_collapseFrom {t : Template} (h : t.Readable) (p : Text.Position) :
    (t.collapseFrom p).Readable := by
  have hspace : IsPlain [' '] := by simp [IsPlain]
  unfold collapseFrom
  induction h generalizing p with
  | nil => simpa using Readable.nil
  | @plain c t hc _ ih =>
    by_cases hb : Text.isBlank c = true
    · cases p <;> simp only [Text.collapseFrom, Option.any_some, hb, if_true] <;> exact ih _
    · cases p with
      | before | inside =>
        simp only [Text.collapseFrom, Option.any_some, hb]
        exact .plain hc (ih _)
      | after =>
        simp only [Text.collapseFrom, Option.any_some, hb]
        exact .plain hspace (.plain hc (ih _))
  | hole hg _ ih =>
    have hin := Readable.hole (guarded_collapseFrom_inside hg) (ih .inside)
    cases p with
    | before | inside => exact hin
    | after => exact .plain hspace hin
  | cast _ ih =>
    have hin := Readable.cast (ih .inside)
    cases p with
    | before | inside => exact hin
    | after => exact .plain hspace hin
  | quotedComma _ ih =>
    have hin := Readable.quotedComma (ih .inside)
    cases p with
    | before | inside => exact hin
    | after => exact .plain hspace hin

theorem readable_collapse {t : Template} (h : t.Readable) : t.collapse.Readable :=
  readable_collapseFrom h .before

end Template

end QueryLoom
