/-!
# Blank characters

White space in the sense of the Unicode property `White_Space`, and text without the blanks at its
ends.
-/

namespace Admission.Text

/-- The code points with the property `White_Space`. -/
def isBlank (c : Char) : Bool :=
  let n := c.toNat
  (0x9 ≤ n && n ≤ 0xD) || n == 0x20 || n == 0x85 || n == 0xA0 || n == 0x1680 ||
    (0x2000 ≤ n && n ≤ 0x200A) || n == 0x2028 || n == 0x2029 || n == 0x202F || n == 0x205F ||
    n == 0x3000

def trimStart (cs : List Char) : List Char := cs.dropWhile isBlank

def trimEnd (cs : List Char) : List Char := (cs.reverse.dropWhile isBlank).reverse

/-- The text without the blanks at either end. -/
def trim (s : String) : String := String.ofList (trimEnd (trimStart s.toList))

example : trim "\t a b\u3000 " = "a b" := by decide

end Admission.Text
