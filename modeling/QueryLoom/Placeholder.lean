import QueryLoom.Bindings
import QueryLoom.Error

/-!
# Placeholders

Statements name their parameters as `:name`. A server that numbers its parameters gets each name
as a dollar sign and the place of the name among the distinct names of the statement. Text between
quotes and the double colon of a cast are no placeholders.
-/

set_option autoImplicit false

namespace QueryLoom.Placeholder

inductive Token where
  /-- A quoted region with its quotes; one that is never closed reaches to the end. -/
  | quoted (cs : List Char)
  | cast
  | name (cs : List Char)
  | other (c : Char)
  deriving DecidableEq, Repr

def isNameStart (c : Char) : Bool := c.isAlpha || c == '_'

def isNamePart (c : Char) : Bool := c.isAlphanum || c == '_'

theorem length_dropWhile_le (p : Char → Bool) (cs : List Char) :
    (cs.dropWhile p).length ≤ cs.length := (List.dropWhile_sublist p).length_le

def lex : List Char → List Token
  | [] => []
  | c :: cs =>
    if c = '\'' || c = '"' then
      .quoted (c :: cs.takeWhile (· != c) ++ (cs.dropWhile (· != c)).take 1) ::
        lex ((cs.dropWhile (· != c)).drop 1)
    else if c = ':' then
      match cs with
      | [] => [.other ':']
      | d :: rest =>
        if d = ':' then .cast :: lex rest
        else if isNameStart d then
          .name (d :: rest.takeWhile isNamePart) :: lex (rest.dropWhile isNamePart)
        else .other ':' :: lex (d :: rest)
    else .other c :: lex cs
termination_by cs => cs.length
decreasing_by
  · have := length_dropWhile_le (· != c) cs
    simp only [List.length_drop, List.length_cons]; omega
  · simp only [List.length_cons]; omega
  · have := length_dropWhile_le isNamePart rest
    simp only [List.length_cons]; omega
  · simp only [List.length_cons]; omega
  · simp only [List.length_cons]; omega

def Token.name? : Token → Option String
  | .name cs => some (String.ofList cs)
  | _ => none

def names (tokens : List Token) : List String :=
  (tokens.filterMap Token.name?).foldl
    (fun seen n => if seen.contains n then seen else seen ++ [n]) []

def Token.numbered (order : List String) : Token → List Char
  | .quoted cs => cs
  | .cast => [':', ':']
  | .name cs => '$' :: Nat.toDigits 10 (order.idxOf (String.ofList cs) + 1)
  | .other c => [c]

structure Positional where
  sql : String
  params : List Value
  deriving Repr

def value (b : Bindings) (name : String) : Except Error Value :=
  match b.get? name with
  | some v => .ok v
  | none => .error (.usage (.unboundPlaceholder name))

def toPositional (sql : String) (b : Bindings) : Except Error Positional := do
  let tokens := lex sql.toList
  let order := names tokens
  let params ← order.mapM (value b)
  return ⟨String.ofList (tokens.flatMap (Token.numbered order)), params⟩

end QueryLoom.Placeholder
