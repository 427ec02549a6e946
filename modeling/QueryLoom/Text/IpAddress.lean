import QueryLoom.Text.Basic

/-!
# Internet addresses

Four numbers with points between them, or eight groups of base-sixteen digits with colons between
them. Two colons in a row stand for one group of zeros or more, and the last two groups may be
written as four numbers.
-/

set_option autoImplicit false

namespace QueryLoom.Text

def isByteNumeral (cs : List Char) : Bool :=
  !cs.isEmpty && cs.length ≤ 3 && cs.all Char.isDigit && (cs.length == 1 || cs.head? != some '0') &&
    Nat.ofDigitChars 10 cs 0 < 256

def isDottedQuad (cs : List Char) : Bool :=
  let parts := pieces (· == '.') cs
  parts.length == 4 && parts.all isByteNumeral

def isHexGroup (cs : List Char) : Bool :=
  !cs.isEmpty && cs.length ≤ 4 && (hexValue? cs).isSome

/-- The number of groups, of which only the last can be a dotted quad and then counts twice. -/
def groupCount? (quadAllowed : Bool) : List (List Char) → Option Nat
  | [] => some 0
  | [g] => if isHexGroup g then some 1 else if quadAllowed && isDottedQuad g then some 2 else none
  | g :: gs => if isHexGroup g then (groupCount? quadAllowed gs).map (· + 1) else none

def colonGroups (cs : List Char) : List (List Char) :=
  if cs.isEmpty then [] else pieces (· == ':') cs

def splitDoubleColon? : List Char → Option (List Char × List Char)
  | ':' :: ':' :: cs => some ([], cs)
  | c :: cs => (splitDoubleColon? cs).map fun (before, after) => (c :: before, after)
  | [] => none

def isColonGroups (cs : List Char) : Bool :=
  match splitDoubleColon? cs with
  | none => groupCount? true (colonGroups cs) == some 8
  | some (before, after) =>
    match groupCount? false (colonGroups before), groupCount? true (colonGroups after) with
    | some m, some n => m + n ≤ 7
    | _, _ => false

def isIpAddress (cs : List Char) : Bool := isDottedQuad cs || isColonGroups cs

end QueryLoom.Text
