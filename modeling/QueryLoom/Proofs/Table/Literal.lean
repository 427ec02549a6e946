import QueryLoom.Proofs.Floating.Text
import QueryLoom.Proofs.Statement.Scan
import QueryLoom.Table.Alteration
import QueryLoom.Value.Text

/-!
# Literals in statements

A literal goes into a statement that binds no parameters, and the scanner of placeholders still
passes over the statement. It takes a text with doubled quotes for several quoted regions that
touch, and it is behind the last of them where the literal ends. So no part of a value is taken for
a placeholder, however deep it stands in lists.
-/

set_option autoImplicit false

namespace QueryLoom

open Placeholder

/-- Plain text, with closed regions between single quotes in it. -/
inductive Inert : List Char → Prop
  | nil : Inert []
  | plain {c : Char} {cs : List Char} (hc : IsPlain [c]) (hcs : Inert cs) : Inert (c :: cs)
  | quoted {seg cs : List Char} (hseg : '\'' ∉ seg) (hcs : Inert cs) :
      Inert ('\'' :: (seg ++ '\'' :: cs))

theorem IsPlain.inert {cs : List Char} (h : IsPlain cs) : Inert cs := by
  induction cs with
  | nil => exact .nil
  | cons c cs ih =>
    obtain ⟨hc, hcs⟩ := List.forall_mem_cons.mp h
    exact .plain (by simpa [IsPlain] using hc) (ih hcs)

/-- Characters of a class without quotes and colons are plain. -/
theorem isPlain_of_class {p : Char → Bool} (hp : ['\'', '"', ':'].all fun c => !p c)
    {cs : List Char} (h : ∀ c ∈ cs, p c = true) : IsPlain cs := by
  intro c hc
  have hclass := h c hc
  refine ⟨?_, ?_, ?_⟩ <;> rintro rfl <;> simp [hclass] at hp

theorem IsIdentifier.isPlain {s : String} (h : IsIdentifier s) : IsPlain s.toList :=
  isPlain_of_class (p := Identifier.isPart) (by decide) fun _ => h.isPart

namespace Inert

variable {cs ds : List Char}

theorem append (hcs : Inert cs) (hds : Inert ds) : Inert (cs ++ ds) := by
  induction hcs with
  | nil => exact hds
  | plain hc _ ih => exact .plain hc ih
  | quoted hseg _ ih => simpa using Inert.quoted hseg ih

theorem append_toList (s t : String) (hs : Inert s.toList) (ht : Inert t.toList) :
    Inert (s ++ t).toList := by
  rw [String.toList_append]
  exact hs.append ht

theorem intercalate {sep : String} (hsep : Inert sep.toList) {items : List String}
    (hitems : ∀ item ∈ items, Inert item.toList) : Inert (sep.intercalate items).toList :=
  Text.of_intercalate (P := fun s => Inert s.toList) .nil append_toList hsep hitems

/-- The scanner finds no name, and whatever numbers the names would get, the text stays. -/
theorem lex_eq (h : Inert cs) (order : List String) :
    (lex cs).filterMap Token.name? = [] ∧ (lex cs).flatMap (Token.numbered order) = cs := by
  induction h with
  | nil => simp [lex]
  | plain hc _ ih =>
    rw [Template.lex_plain hc]
    simp [List.filterMap_cons, Token.name?, Token.numbered, ih]
  | quoted hseg _ ih =>
    rw [lex_closed (Or.inl rfl) hseg]
    simp [List.filterMap_cons, Token.name?, Token.numbered, ih]

theorem toPositional_eq {sql : String} (h : Inert sql.toList) (b : Bindings) :
    toPositional sql b = .ok ⟨sql, []⟩ := by
  have horder : names (lex sql.toList) = [] := by
    rw [Template.names_eq, (h.lex_eq []).1]
    rfl
  rw [toPositional, horder, (h.lex_eq []).2, String.ofList_toList]
  rfl

end Inert

/-! ## Literals -/

namespace Value

def doubled (cs : List Char) : List Char :=
  cs.flatMap fun c => if c = '\'' then ['\'', '\''] else [c]

theorem quoteLiteral_toList (s : String) :
    (quoteLiteral s).toList = '\'' :: (doubled s.toList ++ ['\'']) := by
  simp [quoteLiteral, doubled]

@[simp] theorem doubled_nil : doubled [] = [] := rfl

@[simp] theorem doubled_quote (cs : List Char) :
    doubled ('\'' :: cs) = '\'' :: '\'' :: doubled cs := rfl

@[simp] theorem doubled_cons {c : Char} (hc : c ≠ '\'') (cs : List Char) :
    doubled (c :: cs) = c :: doubled cs := by simp [doubled, hc]

theorem doubled_inert (cs : List Char) {seg : List Char} (hseg : '\'' ∉ seg) :
    Inert ('\'' :: (seg ++ (doubled cs ++ ['\'']))) := by
  -- `seg` is what stands in the region that is open: a doubled quote ends it and opens the next
  induction cs generalizing seg with
  | nil => exact .quoted hseg .nil
  | cons c cs ih =>
    by_cases hc : c = '\''
    · subst hc
      have hrest : Inert ('\'' :: ([] ++ (doubled cs ++ ['\'']))) := ih (by simp)
      simpa using Inert.quoted hseg hrest
    · have hmore : '\'' ∉ seg ++ [c] := by simp [hseg, Ne.symm hc]
      simpa [hc] using ih hmore

mutual

/-- The literal of a value is inert, for every text in it and every nesting of lists. -/
theorem literal_inert : (v : Value) → Inert v.literal.toList
  | .null => by
    rw [literal]
    exact IsPlain.inert (by decide)
  | .bool true => by
    rw [literal]
    exact IsPlain.inert (by decide)
  | .bool false => by
    rw [literal]
    exact IsPlain.inert (by decide)
  | .int n => by
    rw [literal]
    exact (isPlain_of_class (p := Floating.isNumeric) (by decide) fun c hc =>
      (Floating.integer_numeric n.toInt c hc).1).inert
  | .float x => by
    rw [literal]
    exact (isPlain_of_class (p := fun c => Floating.isNumeric c || c.isAlpha) (by decide)
      fun c hc => by simpa using Floating.plain_text_chars x c hc).inert
  | .text s => by
    rw [literal, quoteLiteral_toList]
    exact doubled_inert s.toList List.not_mem_nil
  | .list items => by
    have hsep : Inert ", ".toList := IsPlain.inert (by decide)
    have hitems := Inert.intercalate hsep (literals_inert items)
    rw [literal, String.toList_append, String.toList_append]
    exact ((IsPlain.inert (by decide)).append hitems).append (IsPlain.inert (by decide))

theorem literals_inert : (items : List Value) → ∀ item ∈ literals items, Inert item.toList
  | [] => by simp [literals]
  | v :: vs => by
    rw [literals]
    exact List.forall_mem_cons.mpr ⟨literal_inert v, literals_inert vs⟩

end

end Value

namespace Alteration

theorem statement_setDefault (table column literal : String) :
    (setDefault column literal).statement table =
      "ALTER TABLE " ++ table ++ " ALTER COLUMN " ++ column ++ " SET DEFAULT " ++ literal := by
  have hspace : " " ++ "ALTER COLUMN " = " ALTER COLUMN " := by decide
  have hparts : (setDefault column literal).statement table = "ALTER TABLE " ++ table ++
      " " ++ ("ALTER COLUMN " ++ column ++ " SET DEFAULT " ++ literal) := rfl
  rw [hparts, ← hspace]
  simp only [String.append_assoc]

/-- A statement that sets the default of a column has no placeholders, whatever the value and the
accepted names are: with its placeholders numbered it is the statement that it was, and it has no
parameters. -/
theorem toPositional_setDefault {tablePrefix givenTable givenColumn table column : String}
    (htable : Identifier.table tablePrefix givenTable = .ok table)
    (hcolumn : Identifier.column givenColumn = .ok column) (v : Value) (b : Bindings) :
    toPositional ((setDefault column v.literal).statement table) b =
      .ok ⟨(setDefault column v.literal).statement table, []⟩ := by
  have hnames := (Identifier.table_ok htable).isPlain.inert
  have hnamec := (Identifier.column_ok hcolumn).isPlain.inert
  have halter : Inert "ALTER TABLE ".toList := IsPlain.inert (by decide)
  have hmiddle : Inert " ALTER COLUMN ".toList := IsPlain.inert (by decide)
  have hset : Inert " SET DEFAULT ".toList := IsPlain.inert (by decide)
  refine Inert.toPositional_eq ?_ b
  rw [statement_setDefault]
  simp only [String.toList_append]
  exact ((((halter.append hnames).append hmiddle).append hnamec).append hset).append
    v.literal_inert

def quotations : Value :=
  .list [.text "':a'", .list [.text "é\":b", .null, .text "::c''"], .text ":d'"]

theorem toPositional_quotations :
    Identifier.table "app_" " Users" = .ok "app_users" ∧
      Identifier.column "E mail" = .ok "e_mail" ∧
      quotations.literal = "(''':a''', ('é\":b', NULL, '::c'''''), ':d''')" ∧
      toPositional ((setDefault "e_mail" quotations.literal).statement "app_users")
          Bindings.empty =
        .ok ⟨(setDefault "e_mail" quotations.literal).statement "app_users", []⟩ := by
  have htable : Identifier.table "app_" " Users" = .ok "app_users" := by rfl
  have hcolumn : Identifier.column "E mail" = .ok "e_mail" := by rfl
  exact ⟨htable, hcolumn, by decide +kernel,
    toPositional_setDefault htable hcolumn quotations Bindings.empty⟩

end Alteration

end QueryLoom
