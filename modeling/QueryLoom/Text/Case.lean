import QueryLoom.Text.CaseTable

/-!
# Letter case

Lower case is the full Unicode mapping: a capital dotted I becomes two characters, and a capital
sigma becomes a final sigma at the end of a word. Upper case is kept only where the whole of it
is ASCII, which is all that a comparison with an ASCII word can see.
-/

set_option autoImplicit false

namespace QueryLoom.Text

def isCased (c : Char) : Bool := inRanges casedRanges c.toNat

def isCaseIgnorable (c : Char) : Bool := inRanges caseIgnorableRanges c.toNat

def casedNext (cs : List Char) : Bool :=
  match cs.dropWhile isCaseIgnorable with
  | [] => false
  | c :: _ => isCased c

def lowerChar (c : Char) : Char :=
  let n := c.toNat
  match lowerRuns.find? fun r => r.first ≤ n && n ≤ r.last with
  | some r => if (n - r.first) % r.step = 0 then Char.ofNat ((n : Int) + r.offset).toNat else c
  | none => c

/-- Lower case of `c` where `before` stands to its left, nearest character first, and `after` to
its right. -/
def lowerAt (before : List Char) (c : Char) (after : List Char) : List Char :=
  if c = 'Σ' then [if casedNext before && !casedNext after then 'ς' else 'σ']
  else if c = 'İ' then ['i', '\u0307']
  else [lowerChar c]

def lowerFrom (before : List Char) : List Char → List Char
  | [] => []
  | c :: cs => lowerAt before c cs ++ lowerFrom (c :: before) cs

def lower (cs : List Char) : List Char := lowerFrom [] cs

/-- Upper case of a character if that is ASCII throughout, else the character itself. -/
def asciiCapitals (c : Char) : List Char :=
  match c with
  | 'ß' => ['S', 'S']
  | 'ı' => ['I']
  | 'ſ' => ['S']
  | 'ﬀ' => ['F', 'F']
  | 'ﬁ' => ['F', 'I']
  | 'ﬂ' => ['F', 'L']
  | 'ﬃ' => ['F', 'F', 'I']
  | 'ﬄ' => ['F', 'F', 'L']
  | 'ﬅ' => ['S', 'T']
  | 'ﬆ' => ['S', 'T']
  | c => [c.toUpper]

def asciiLower (s : String) : String := String.ofList (s.toList.map Char.toLower)

def asciiUpper (s : String) : String := String.ofList (s.toList.map Char.toUpper)

def isAsciiLetter (c : Char) : Bool := c.isAlpha

end QueryLoom.Text
