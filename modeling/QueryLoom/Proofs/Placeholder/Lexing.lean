import QueryLoom.Proofs.Placeholder

/-!
# How a statement divides into tokens

Which texts are tokens, and how far each of them goes. A quoted region goes on over a quote of its
own kind that stands there twice; the scanner takes such a region for several that touch. With
touching regions joined, it gives the only division that there is.
-/

set_option autoImplicit false

namespace QueryLoom.Placeholder

def IsQuote (c : Char) : Prop := c = '\'' ∨ c = '"'

theorem isQuote_iff (c : Char) : (c = '\'' || c = '"') = true ↔ IsQuote c := by simp [IsQuote]

/-- What can stand in a region between these quotes: the quote itself stands there twice. -/
inductive Enclosed (q : Char) : List Char → Prop
  | nil : Enclosed q []
  | other {c : Char} {cs : List Char} (hc : c ≠ q) (hcs : Enclosed q cs) : Enclosed q (c :: cs)
  | doubled {cs : List Char} (hcs : Enclosed q cs) : Enclosed q (q :: q :: cs)

inductive Lexed : List Char → List Token → Prop
  | nil : Lexed [] []
  | quoted {q : Char} {body rest : List Char} {ts : List Token} (hq : IsQuote q)
      (hbody : Enclosed q body) (hrest : rest.head? ≠ some q) (ht : Lexed rest ts) :
      Lexed (q :: (body ++ q :: rest)) (.quoted (q :: (body ++ [q])) :: ts)
  | unclosed {q : Char} {body : List Char} (hq : IsQuote q) (hbody : Enclosed q body) :
      Lexed (q :: body) [.quoted (q :: body)]
  | cast {rest : List Char} {ts : List Token} (ht : Lexed rest ts) :
      Lexed (':' :: ':' :: rest) (.cast :: ts)
  | name {c : Char} {cs rest : List Char} {ts : List Token} (hc : isNameStart c = true)
      (hcs : ∀ d ∈ cs, isNamePart d = true) (hrest : Text.Stops isNamePart rest)
      (ht : Lexed rest ts) : Lexed (':' :: c :: (cs ++ rest)) (.name (c :: cs) :: ts)
  | other {c : Char} {rest : List Char} {ts : List Token} (hq : ¬ IsQuote c)
      (hcolon : c = ':' → ∀ d, rest.head? = some d → d ≠ ':' ∧ isNameStart d = false)
      (ht : Lexed rest ts) : Lexed (c :: rest) (.other c :: ts)

def Token.text : Token → List Char
  | .quoted cs => cs
  | .cast => [':', ':']
  | .name cs => ':' :: cs
  | .other c => [c]

theorem Lexed.flatMap_text {cs : List Char} {ts : List Token} (h : Lexed cs ts) :
    ts.flatMap Token.text = cs := by
  induction h with
  | nil => rfl
  | quoted _ _ _ _ ih => simp [Token.text, ih]
  | unclosed => simp [Token.text]
  | cast _ ih => simp [Token.text, ih]
  | name _ _ _ _ ih => simp [Token.text, ih]
  | other _ _ _ ih => simp [Token.text, ih]

/-- What is left of a text behind its first token. -/
theorem Lexed.tail {cs : List Char} {t : Token} {ts : List Token} (h : Lexed cs (t :: ts)) :
    ∃ rest, Lexed rest ts ∧ ∀ n, t = .name n → Text.Stops isNamePart rest := by
  cases h with
  | quoted _ _ _ ht => exact ⟨_, ht, by simp⟩
  | unclosed => exact ⟨[], .nil, by simp⟩
  | cast ht => exact ⟨_, ht, by simp⟩
  | name _ _ hrest ht => exact ⟨_, ht, fun _ _ => hrest⟩
  | other _ _ ht => exact ⟨_, ht, by simp⟩

theorem Lexed.of_append {cs : List Char} {front back : List Token} (h : Lexed cs (front ++ back)) :
    ∃ rest, Lexed rest back := by
  induction front generalizing cs with
  | nil => exact ⟨cs, h⟩
  | cons t front ih =>
    obtain ⟨rest, hrest, -⟩ := h.tail
    exact ih hrest

/-! ## Every text divides -/

/-- A region that is opened is closed by a quote that stands alone, or goes to the end. -/
theorem enclosed_or_closed (q : Char) (cs : List Char) :
    Enclosed q cs ∨ ∃ body rest, Enclosed q body ∧ cs = body ++ q :: rest ∧
      rest.head? ≠ some q := by
  -- on the length, for two quotes in a row are passed in one step
  induction hn : cs.length using Nat.strongRecOn generalizing cs with
  | _ n ih =>
    cases cs with
    | nil => exact Or.inl .nil
    | cons c cs =>
      simp only [List.length_cons] at hn
      by_cases hc : c = q
      · subst hc
        cases cs with
        | nil => exact Or.inr ⟨[], [], .nil, rfl, by simp⟩
        | cons d cs =>
          by_cases hd : d = c
          · subst hd
            simp only [List.length_cons] at hn
            rcases ih _ (by omega) cs rfl with hcs | ⟨body, rest, hbody, rfl, hrest⟩
            · exact Or.inl hcs.doubled
            · exact Or.inr ⟨d :: d :: body, rest, hbody.doubled, rfl, hrest⟩
          · exact Or.inr ⟨[], d :: cs, .nil, rfl, by simpa using hd⟩
      · rcases ih _ (by omega) cs rfl with hcs | ⟨body, rest, hbody, rfl, hrest⟩
        · exact Or.inl (.other hc hcs)
        · exact Or.inr ⟨c :: body, rest, .other hc hbody, rfl, hrest⟩

theorem span_isNamePart (cs : List Char) :
    ∃ front back, cs = front ++ back ∧ (∀ d ∈ front, isNamePart d = true) ∧
      Text.Stops isNamePart back :=
  ⟨cs.takeWhile isNamePart, cs.dropWhile isNamePart, List.takeWhile_append_dropWhile.symm,
    List.all_eq_true.mp List.all_takeWhile, Text.stops_dropWhile isNamePart cs⟩

theorem exists_lexed (cs : List Char) : ∃ ts, Lexed cs ts := by
  induction hn : cs.length using Nat.strongRecOn generalizing cs with
  | _ n ih =>
    cases cs with
    | nil => exact ⟨[], .nil⟩
    | cons c cs =>
      simp only [List.length_cons] at hn
      by_cases hq : IsQuote c
      · rcases enclosed_or_closed c cs with hcs | ⟨body, rest, hbody, rfl, hrest⟩
        · exact ⟨_, .unclosed hq hcs⟩
        · simp only [List.length_append, List.length_cons] at hn
          obtain ⟨ts, ht⟩ := ih _ (by omega) rest rfl
          exact ⟨_, .quoted hq hbody hrest ht⟩
      · obtain ⟨ts, ht⟩ := ih _ (by omega) cs rfl
        by_cases hc : c = ':'
        · subst hc
          cases cs with
          | nil => exact ⟨_, .other hq (by simp) ht⟩
          | cons d rest =>
            simp only [List.length_cons] at hn
            by_cases hd : d = ':'
            · subst hd
              obtain ⟨us, hu⟩ := ih _ (by omega) rest rfl
              exact ⟨_, .cast hu⟩
            · by_cases hs : isNameStart d = true
              · obtain ⟨front, back, rfl, hfront, hback⟩ := span_isNamePart rest
                simp only [List.length_append] at hn
                obtain ⟨us, hu⟩ := ih _ (by omega) back rfl
                exact ⟨_, .name hs hfront hback hu⟩
              · refine ⟨_, .other hq (fun _ e he => ?_) ht⟩
                obtain rfl : d = e := by simpa using he
                exact ⟨hd, by simpa using hs⟩
        · exact ⟨_, .other hq (fun h => absurd h hc) ht⟩

/-! ## The scanner on each kind of token -/

variable {q c : Char} {seg cs rest : List Char} {ts : List Token}

theorem stops_ne_cons (q : Char) (rest : List Char) : Text.Stops (· != q) (q :: rest) :=
  Text.stops_cons (by simp) rest

theorem forall_ne_of_not_mem (h : q ∉ seg) : ∀ c ∈ seg, (c != q) = true := by
  intro c hc
  simpa using fun heq : c = q => h (heq ▸ hc)

theorem lex_closed (hq : IsQuote q) (hseg : q ∉ seg) (rest : List Char) :
    lex (q :: (seg ++ q :: rest)) = .quoted (q :: (seg ++ [q])) :: lex rest := by
  have hne := forall_ne_of_not_mem hseg
  rw [lex.eq_def]
  simp only [Text.takeWhile_append hne (stops_ne_cons q rest),
    Text.dropWhile_append hne (stops_ne_cons q rest)]
  rw [if_pos ((isQuote_iff q).mpr hq)]
  simp

theorem lex_unclosed (hq : IsQuote q) (hseg : q ∉ seg) :
    lex (q :: seg) = [.quoted (q :: seg)] := by
  have hne := forall_ne_of_not_mem hseg
  have htake := Text.takeWhile_append hne (Text.stops_nil _)
  have hdrop := Text.dropWhile_append hne (Text.stops_nil _)
  rw [List.append_nil] at htake hdrop
  rw [lex.eq_def]
  simp only [htake, hdrop]
  rw [if_pos ((isQuote_iff q).mpr hq)]
  simp [lex]

theorem lex_cast (rest : List Char) : lex (':' :: ':' :: rest) = .cast :: lex rest := by
  rw [lex]
  simp

/-- A name ends where its characters end. -/
theorem lex_name (hc : isNameStart c = true) (hcs : ∀ d ∈ cs, isNamePart d = true)
    (hrest : Text.Stops isNamePart rest) :
    lex (':' :: c :: (cs ++ rest)) = .name (c :: cs) :: lex rest := by
  have hcolon : c ≠ ':' := by
    rintro rfl
    exact absurd hc (by decide)
  rw [lex.eq_def]
  simp only [hc, hcolon, Text.takeWhile_append hcs hrest, Text.dropWhile_append hcs hrest]
  simp

theorem lex_other (hq : ¬ IsQuote c)
    (hcolon : c = ':' → ∀ d, rest.head? = some d → d ≠ ':' ∧ isNameStart d = false) :
    lex (c :: rest) = .other c :: lex rest := by
  rw [lex.eq_def]
  simp only
  rw [if_neg (mt (isQuote_iff c).mp hq)]
  by_cases hc : c = ':'
  · subst hc
    cases rest with
    | nil => simp [lex]
    | cons d rest =>
      obtain ⟨hd, hs⟩ := hcolon rfl d rfl
      simp [hd, hs]
  · rw [if_neg hc]

/-! ## Touching regions -/

/-- The token in front of others, as one region with a region that it touches. -/
def joinFront : Token → List Token → List Token
  | .quoted cs, .quoted ds :: ts =>
    if cs.head? = ds.head? then .quoted (cs ++ ds) :: ts else .quoted cs :: .quoted ds :: ts
  | t, ts => t :: ts

def join (ts : List Token) : List Token := ts.foldr joinFront []

theorem join_cons (t : Token) (ts : List Token) : join (t :: ts) = joinFront t (join ts) := rfl

/-- What is told of a region piece by piece does not change. -/
theorem flatMap_join {β : Type} {f : Token → List β}
    (hf : ∀ cs ds, f (.quoted (cs ++ ds)) = f (.quoted cs) ++ f (.quoted ds)) (ts : List Token) :
    (join ts).flatMap f = ts.flatMap f := by
  induction ts with
  | nil => rfl
  | cons t ts ih =>
    rw [join_cons, List.flatMap_cons, ← ih]
    fun_cases joinFront t (join ts) <;> simp_all

theorem Lexed.head?_quoted {ds : List Char} (h : Lexed rest (.quoted ds :: ts)) :
    ds.head? = rest.head? := by
  cases h with
  | quoted => rfl
  | unclosed => rfl

/-- A region is not joined to one with other quotes. -/
theorem Lexed.joinFront_eq (h : Lexed rest ts) (hrest : rest.head? ≠ some q) (cs : List Char) :
    joinFront (.quoted (q :: cs)) ts = .quoted (q :: cs) :: ts := by
  cases ts with
  | nil => rfl
  | cons t ts =>
    cases t with
    | quoted ds =>
      have hhead := h.head?_quoted
      have hne : (q :: cs).head? ≠ ds.head? := by
        rw [hhead, List.head?_cons]
        exact hrest.symm
      simp only [joinFront, if_neg hne]
    | cast => rfl
    | name => rfl
    | other => rfl

/-- A region whose last stretch comes out whole comes out whole. -/
theorem join_lex_enclosed (hq : IsQuote q) {last close : List Char}
    (hlast : ∀ seg, q ∉ seg →
      join (lex (q :: (seg ++ last))) = .quoted (q :: (seg ++ close)) :: ts)
    {body : List Char} (hbody : Enclosed q body) (seg : List Char) (hseg : q ∉ seg) :
    join (lex (q :: (seg ++ (body ++ last)))) = .quoted (q :: (seg ++ (body ++ close))) :: ts := by
  -- `seg` is what the scanner has of the stretch that it is in: a doubled quote ends the stretch
  -- and opens the next one, which is joined to it
  induction hbody generalizing seg with
  | nil => exact hlast seg hseg
  | @other c cs hc _ ih =>
    have hmore : q ∉ seg ++ [c] := by simp [hseg, Ne.symm hc]
    simpa using ih (seg ++ [c]) hmore
  | @doubled cs _ ih =>
    have hrest := ih [] (by simp)
    simp only [List.nil_append, List.cons_append] at hrest ⊢
    rw [lex_closed hq hseg, join_cons, hrest]
    simp [joinFront]

/-- The scanner gives the tokens, once touching regions are joined. -/
theorem Lexed.join_lex (h : Lexed cs ts) : join (lex cs) = ts := by
  induction h with
  | nil => simp [lex, join]
  | @quoted q body rest ts hq hbody hrest ht ih =>
    refine join_lex_enclosed hq (fun seg hseg => ?_) hbody [] (by simp)
    rw [lex_closed hq hseg, join_cons, ih, ht.joinFront_eq hrest]
  | @unclosed q body hq hbody =>
    have hlast : ∀ seg, q ∉ seg → join (lex (q :: (seg ++ []))) = [.quoted (q :: (seg ++ []))] :=
      fun seg hseg => by simp [lex_unclosed hq hseg, join, joinFront]
    simpa using join_lex_enclosed hq hlast hbody [] (by simp)
  | cast _ ih => rw [lex_cast, join_cons, ih]; rfl
  | name hc hcs hrest _ ih => rw [lex_name hc hcs hrest, join_cons, ih]; rfl
  | other hq hcolon _ ih => rw [lex_other hq hcolon, join_cons, ih]; rfl

theorem Lexed.flatMap_lex {β : Type} {f : Token → List β} (h : Lexed cs ts)
    (hf : ∀ cs ds, f (.quoted (cs ++ ds)) = f (.quoted cs) ++ f (.quoted ds)) :
    (lex cs).flatMap f = ts.flatMap f := by
  rw [← h.join_lex, flatMap_join hf]

/-- A text divides in one way only. -/
theorem lexed_iff : Lexed cs ts ↔ ts = join (lex cs) := by
  refine ⟨fun h => h.join_lex.symm, ?_⟩
  rintro rfl
  obtain ⟨us, hu⟩ := exists_lexed cs
  exact hu.join_lex.symm ▸ hu

end QueryLoom.Placeholder
