import Admission.Text.CaseTable

/-!
# Lower case

Full lower case of a text. Every letter maps on its own, except the capital sigma, which has a
second small form at the end of a word.
-/

namespace Admission.Text

def inRanges (ranges : List (Nat × Nat)) (c : Char) : Bool :=
  ranges.any fun (a, b) => a ≤ c.toNat && c.toNat ≤ b

def isCased (c : Char) : Bool := inRanges casedRanges c

def isCaseIgnorable (c : Char) : Bool := inRanges ignorableRanges c

/-- The small form of one character. The dotted capital i is the one with two code points. -/
def lowerChar (c : Char) : List Char :=
  if c.toNat < 0x80 then [c.toLower]
  else if c.toNat == 0x130 then ['i', '\u0307']
  else match lowerRuns.find? (·.covers c.toNat) with
    | some run => [Char.ofNat (c.toNat + run.shift).toNat]
    | none => [c]

/-- The nearest character that is not case-ignorable is a cased one. -/
def meetsCased (cs : List Char) : Bool :=
  match cs.dropWhile isCaseIgnorable with
  | c :: _ => isCased c
  | [] => false

/-- The small sigma after `before` (nearest character first) and in front of `after`. -/
def lowerSigma (before after : List Char) : Char :=
  if meetsCased before && !meetsCased after then 'ς' else 'σ'

/-- `before` holds the characters already read, nearest first. -/
def lowerFrom (before : List Char) : List Char → List Char
  | [] => []
  | c :: rest =>
    (if c == 'Σ' then [lowerSigma before rest] else lowerChar c) ++ lowerFrom (c :: before) rest

def lower (s : String) : String := String.ofList (lowerFrom [] s.toList)

example : lower "Zero-TRUST" = "zero-trust" := by decide

end Admission.Text
