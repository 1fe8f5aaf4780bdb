import Admission.Text.HiddenTable
import Admission.Text.Lowercase

/-!
# Quoted text

A text or a list of texts on one line, every hidden character escaped.
-/

namespace Admission.Text

def isHidden (c : Char) : Bool := inRanges hiddenRanges c

/-- The code point in hexadecimal digits between braces. -/
def pointEscape (c : Char) : List Char := "\\u\x7b".toList ++ Nat.toDigits 16 c.toNat ++ ['\x7d']

def quoteChar (c : Char) : List Char :=
  match c with
  | '"' => ['\\', '"']
  | '\\' => ['\\', '\\']
  | '\n' => ['\\', 'n']
  | '\r' => ['\\', 'r']
  | '\t' => ['\\', 't']
  | '\x00' => ['\\', '0']
  | c => if isHidden c then pointEscape c else [c]

def quoted (s : String) : String := String.ofList ('"' :: s.toList.flatMap quoteChar ++ ['"'])

/-- Quoted texts between brackets. -/
def quotedList (items : List String) : String :=
  "[" ++ ", ".intercalate (items.map quoted) ++ "]"

example : quotedList ["a\n", "\"é\"", "\u200b"] = "[\"a\\n\", \"\\\"é\\\"\", \"\\u\x7b200b\x7d\"]" := by
  decide +kernel

end Admission.Text
