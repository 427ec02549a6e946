import QueryLoom.Floating.Text
import QueryLoom.Text.CaseTable
import QueryLoom.Text.PrintableTable
import QueryLoom.Value.Basic

/-!
# Values as text

Three texts of a value: the SQL literal, for the statements that bind no parameters; the bare
text, from which bind keys are derived and which a text column receives; and the diagnostic text
of messages, in which every character can be seen: those that print as themselves stand as they
are, all others as an escape.
-/

set_option autoImplicit false

namespace QueryLoom.Text

def isPlain (c : Char) : Bool :=
  !inRanges unprintableRanges c.toNat && !inRanges graphemeExtendRanges c.toNat

def codeEscape (c : Char) : String := "\\u\x7b" ++ hex c.toNat ++ "\x7d"

def diagnosticEscape (c : Char) : String :=
  match c with
  | '\x00' => "\\0"
  | '\t' => "\\t"
  | '\r' => "\\r"
  | '\n' => "\\n"
  | '"' => "\\\""
  | '\\' => "\\\\"
  | c => if isPlain c then String.singleton c else codeEscape c

def quoted (s : String) : String :=
  "\"" ++ String.join (s.toList.map diagnosticEscape) ++ "\""

end QueryLoom.Text

namespace QueryLoom.Value
open Floating

def quoteLiteral (s : String) : String :=
  "'" ++ String.ofList (s.toList.flatMap fun c => if c = '\'' then ['\'', '\''] else [c]) ++ "'"

mutual

def literal : Value → String
  | .null => "NULL"
  | .bool true => "TRUE"
  | .bool false => "FALSE"
  | .int n => Text.integer n.toInt
  | .float x => plain.text x
  | .text s => quoteLiteral s
  | .list items => "(" ++ ", ".intercalate (literals items) ++ ")"

def literals : List Value → List String
  | [] => []
  | v :: vs => v.literal :: literals vs

end

def boolText (b : Bool) : String := if b then "true" else "false"

mutual

def bare : Value → String
  | .null => ""
  | .bool b => boolText b
  | .int n => Text.integer n.toInt
  | .float x => plain.text x
  | .text s => s
  | .list items => ",".intercalate (bares items)

def bares : List Value → List String
  | [] => []
  | v :: vs => v.bare :: bares vs

end

mutual

def diagnosis : Value → String
  | .null => "Null"
  | .bool b => "Bool(" ++ boolText b ++ ")"
  | .int n => "Int(" ++ Text.integer n.toInt ++ ")"
  | .float x => "Float(" ++ diagnostic.text x ++ ")"
  | .text s => "Text(" ++ Text.quoted s ++ ")"
  | .list items => "List([" ++ ", ".intercalate (diagnoses items) ++ "])"

def diagnoses : List Value → List String
  | [] => []
  | v :: vs => v.diagnosis :: diagnoses vs

end

end QueryLoom.Value
