import Admission.Json.Printer
import Admission.Json.Token
import Admission.Proofs.Decimal

/-!
# The tokens of a written text

Every part of a value that is written down is found again as one token: a mark between two parts, a text with its
escapes, a number, a word. Where a number or a word ends is seen by the character behind it, and behind each of
them there is one that cannot belong to it.
-/

namespace Admission.Json

/-- The tokens that are there once the machine has gone through a text. -/
def Scan.tokens? (s : Scan) (cs : List Char) : Option (List Token) := (s.run cs).bind Scan.finish

/-- What follows is no part of a number or a word. -/
def Ends (cs : List Char) : Prop := ∀ c ∈ cs.head?, isNumberMark c = false ∧ c.isLower = false

theorem Ends.nil : Ends [] := fun _ h => by cases h

theorem Ends.cons {c : Char} (cs : List Char) (h : isNumberMark c = false ∧ c.isLower = false) : Ends (c :: cs) := by
  intro d hd
  cases hd
  exact h

/-! ## The marks of a number -/

theorem isNumberMark_of_isDigit {c : Char} (h : c.isDigit = true) : isNumberMark c = true := by
  unfold isNumberMark
  simp only [h, Bool.true_or]

theorem isNumberMark_of_mem_takeWhile {c : Char} {cs : List Char} (h : c ∈ cs.takeWhile Char.isDigit) :
    isNumberMark c = true :=
  isNumberMark_of_isDigit (List.mem_takeWhile_imp h)

theorem isNumberMark_of_exponent? {cs : List Char} {e : Int} (h : exponent? cs = some e) :
    ∀ c ∈ cs, isNumberMark c = true := by
  cases cs with
  | nil => cases h
  | cons sign rest =>
    have hread : ∀ {n : Int} {ds : List Char},
        (if ds.isEmpty || !ds.all Char.isDigit then none else some n) = some e → ∀ c ∈ ds, isNumberMark c = true := by
      intro n ds h c hc
      split_ifs at h with hds
      rw [Bool.or_eq_true, not_or, Bool.not_eq_true', Bool.not_eq_false] at hds
      exact isNumberMark_of_isDigit (List.all_eq_true.mp hds.2 c hc)
    unfold exponent? at h
    dsimp only at h
    by_cases hminus : (sign == '-') = true
    · rw [if_pos hminus] at h
      rw [eq_of_beq hminus]
      exact List.forall_mem_cons.mpr ⟨rfl, hread h⟩
    · rw [if_neg hminus] at h
      by_cases hplus : (sign == '+') = true
      · rw [if_pos hplus] at h
        rw [eq_of_beq hplus]
        exact List.forall_mem_cons.mpr ⟨rfl, hread h⟩
      · rw [if_neg hplus] at h
        exact hread h

theorem isNumberMark_of_unsigned? {negative : Bool} {marks : List Char} {value : Json}
    (h : unsigned? negative marks = some value) : ∀ c ∈ marks, isNumberMark c = true := by
  have hexponent : ∀ (c : Char) (rest : List Char) (f : Int → Json),
      (if c == 'e' || c == 'E' then (exponent? rest).map f else none) = some value →
        ∀ d ∈ c :: rest, isNumberMark d = true := by
    intro c rest f h
    split_ifs at h with he
    obtain ⟨e, he', -⟩ := Option.map_eq_some_iff.mp h
    refine List.forall_mem_cons.mpr ⟨?_, isNumberMark_of_exponent? he'⟩
    unfold isNumberMark
    rw [Bool.or_assoc, he, Bool.or_true]
  have hparts : ∀ {cs : List Char}, (∀ c ∈ cs.dropWhile Char.isDigit, isNumberMark c = true) →
      ∀ c ∈ cs, isNumberMark c = true := by
    intro cs hrest c hc
    rw [← List.takeWhile_append_dropWhile (p := Char.isDigit) (l := cs)] at hc
    rcases List.mem_append.mp hc with hwhole | hc
    · exact isNumberMark_of_mem_takeWhile hwhole
    · exact hrest c hc
  refine hparts ?_
  unfold unsigned? at h
  dsimp only at h
  split at h
  · cases h
  split at h
  · next hrest =>
    rw [hrest]
    exact fun c hc => by cases hc
  · next rest hrest =>
    rw [hrest]
    refine List.forall_mem_cons.mpr ⟨rfl, hparts ?_⟩
    split at h
    · cases h
    split at h
    · next hend =>
      rw [hend]
      exact fun c hc => by cases hc
    · next c exponent hend =>
      rw [hend]
      exact hexponent c exponent _ h
  · next c exponent _ hrest =>
    rw [hrest]
    exact hexponent c exponent _ h

theorem isNumberMark_of_numberValue? {marks : List Char} {value : Json} (h : numberValue? marks = some value) :
    ∀ c ∈ marks, isNumberMark c = true := by
  unfold numberValue? at h
  split at h
  · exact List.forall_mem_cons.mpr ⟨rfl, isNumberMark_of_unsigned? h⟩
  · exact isNumberMark_of_unsigned? h

namespace Scan

variable (tokens : List Token) (cs : List Char)

theorem tokens?_cons (s : Scan) (c : Char) : s.tokens? (c :: cs) = (s.step c).bind fun s => s.tokens? cs := by
  unfold tokens? run
  rw [List.foldlM_cons]
  cases s.step c <;> rfl

theorem tokens?_of_step {s t : Scan} {c : Char} (h : s.step c = some t) : s.tokens? (c :: cs) = t.tokens? cs := by
  rw [tokens?_cons, h]
  rfl

/-! ## Gaps and marks -/

theorem tokens?_gap {c : Char} (h : isGap c = true) :
    tokens? ⟨.between, tokens⟩ (c :: cs) = tokens? ⟨.between, tokens⟩ cs := by
  refine tokens?_of_step cs ?_
  unfold step startToken
  simp only [h, if_true]

theorem tokens?_newline (depth : Nat) :
    tokens? ⟨.between, tokens⟩ (newline depth ++ cs) = tokens? ⟨.between, tokens⟩ cs := by
  have hblanks : ∀ n, tokens? ⟨.between, tokens⟩ (List.replicate n ' ' ++ cs) = tokens? ⟨.between, tokens⟩ cs := by
    intro n
    induction n with
    | zero => rfl
    | succ n ih => exact (tokens?_gap tokens _ rfl).trans ih
  exact (tokens?_gap tokens _ rfl).trans (hblanks (2 * depth))

theorem tokens?_punctuation {c : Char} {token : Token} (h : punctuation? c = some token) :
    tokens? ⟨.between, tokens⟩ (c :: cs) = tokens? ⟨.between, token :: tokens⟩ cs := by
  refine tokens?_of_step cs ?_
  unfold punctuation? at h
  split at h <;> first | (cases h; rfl) | cases h

/-! ## Texts -/

theorem tokens?_controlEscape (text : List Char) {c : Char} (h : c.toNat < 0x20) :
    tokens? ⟨.string (some text), tokens⟩ (controlEscape c ++ cs) =
      tokens? ⟨.string (some (c :: text)), tokens⟩ cs := by
  have hhex : ∀ n < 16, hexValue? (Nat.digitChar n) = some n := by decide
  have hhigh : hexValue? (Nat.digitChar (c.toNat / 16)) = some (c.toNat / 16) := hhex _ (by omega)
  have hlow : hexValue? (Nat.digitChar (c.toNat % 16)) = some (c.toNat % 16) := hhex _ (by omega)
  have hvalue : 16 * (c.toNat / 16) + c.toNat % 16 = c.toNat := by omega
  have hclose : closeEscape (some text) none c.toNat = .string (some (c :: text)) := by
    have hhalf : (decide (0xD800 ≤ c.toNat) && decide (c.toNat ≤ 0xDBFF)) = false := by
      simp only [Bool.and_eq_false_iff, decide_eq_false_iff_not]
      omega
    have hother : (decide (0xDC00 ≤ c.toNat) && decide (c.toNat ≤ 0xDFFF)) = false := by
      simp only [Bool.and_eq_false_iff, decide_eq_false_iff_not]
      omega
    unfold closeEscape
    simp only [hhalf, hother, Bool.false_eq_true, if_false, Option.map_some, Char.ofNat_toNat]
  unfold controlEscape
  simp only [List.cons_append, List.nil_append]
  rw [tokens?_of_step _ (t := ⟨.escape (some text), tokens⟩) rfl,
    tokens?_of_step _ (t := ⟨.hex (some text) none 0 0, tokens⟩) rfl,
    tokens?_of_step _ (t := ⟨.hex (some text) none 1 0, tokens⟩) rfl,
    tokens?_of_step _ (t := ⟨.hex (some text) none 2 0, tokens⟩) rfl,
    tokens?_of_step _ (t := ⟨.hex (some text) none 3 (c.toNat / 16), tokens⟩),
    tokens?_of_step _ (t := ⟨.string (some (c :: text)), tokens⟩)]
  · unfold step
    simp only [hlow, Option.map_some, BEq.rfl, if_true, hvalue, hclose]
  · unfold step
    simp only [hhigh, Option.map_some]
    rw [if_neg (by decide), Nat.mul_zero, Nat.zero_add]

theorem tokens?_escapeChar (text : List Char) (c : Char) :
    tokens? ⟨.string (some text), tokens⟩ (escapeChar c ++ cs) =
      tokens? ⟨.string (some (c :: text)), tokens⟩ cs := by
  unfold escapeChar
  split
  case h_8 hquote hbackslash _ _ _ _ _ =>
    split_ifs with hcontrol
    · exact tokens?_controlEscape tokens cs text hcontrol
    · refine tokens?_of_step cs ?_
      unfold step letterStep
      simp only [beq_eq_false_iff_ne.mpr hquote, beq_eq_false_iff_ne.mpr hbackslash, Bool.false_eq_true, if_false,
        hcontrol, Option.map_some]
  -- An escape of two characters.
  all_goals
    simp only [List.cons_append, List.nil_append]
    rw [tokens?_of_step _ (t := ⟨.escape (some text), tokens⟩) rfl, tokens?_of_step]
    rfl

theorem tokens?_stringChars (s : String) :
    tokens? ⟨.between, tokens⟩ (stringChars s ++ cs) = tokens? ⟨.between, .str (some s) :: tokens⟩ cs := by
  have hletters : ∀ letters text, tokens? ⟨.string (some text), tokens⟩ (letters.flatMap escapeChar ++ '"' :: cs) =
      tokens? ⟨.between, .str (some (String.ofList (text.reverse ++ letters))) :: tokens⟩ cs := by
    intro letters
    induction letters with
    | nil =>
      intro text
      rw [List.append_nil]
      exact tokens?_of_step cs rfl
    | cons c rest ih =>
      intro text
      rw [List.flatMap_cons, List.append_assoc, tokens?_escapeChar, ih, List.reverse_cons, List.append_assoc]
      rfl
  unfold stringChars
  simp only [List.cons_append, List.append_assoc, List.nil_append]
  refine (tokens?_of_step _ (t := ⟨.string (some []), tokens⟩) rfl).trans ((hletters s.toList []).trans ?_)
  rw [List.reverse_nil, List.nil_append, String.ofList_toList]

/-! ## Numbers and words -/

theorem tokens?_numberEnd {marks : List Char} {value : Json} (hvalue : numberValue? marks.reverse = some value)
    (hends : Ends cs) : tokens? ⟨.number marks, tokens⟩ cs = tokens? ⟨.between, .atom value :: tokens⟩ cs := by
  cases cs with
  | nil =>
    show (numberValue? marks.reverse).map (fun value => (Token.atom value :: tokens).reverse) = _
    rw [hvalue]
    rfl
  | cons c rest =>
    have hstep : step ⟨.number marks, tokens⟩ c = step ⟨.between, .atom value :: tokens⟩ c := by
      unfold step
      simp only [(hends c rfl).1, Bool.false_eq_true, if_false, hvalue, Option.bind_some]
    rw [tokens?_cons, tokens?_cons, hstep]

theorem tokens?_wordEnd (letters : List Char) {value : Json} (hvalue : wordValue? letters.reverse = some value)
    (hends : Ends cs) : tokens? ⟨.word letters, tokens⟩ cs = tokens? ⟨.between, .atom value :: tokens⟩ cs := by
  cases cs with
  | nil =>
    show (wordValue? letters.reverse).map (fun value => (Token.atom value :: tokens).reverse) = _
    rw [hvalue]
    rfl
  | cons c rest =>
    have hstep : step ⟨.word letters, tokens⟩ c = step ⟨.between, .atom value :: tokens⟩ c := by
      unfold step
      simp only [(hends c rfl).2, Bool.false_eq_true, if_false, hvalue, Option.bind_some]
    rw [tokens?_cons, tokens?_cons, hstep]

theorem head_of_numberValue? {c : Char} {marks : List Char} {value : Json}
    (h : numberValue? (c :: marks) = some value) : c = '-' ∨ c.isDigit = true := by
  by_contra hc
  rw [not_or, Bool.not_eq_true] at hc
  obtain ⟨hminus, hdigit⟩ := hc
  have hwhole : (c :: marks).takeWhile Char.isDigit = [] := by
    rw [List.takeWhile_cons, hdigit, if_neg Bool.false_ne_true]
  unfold numberValue? at h
  split at h
  · next heq =>
    cases heq
    exact hminus rfl
  · unfold unsigned? at h
    rw [hwhole] at h
    cases h

theorem tokens?_number {marks : List Char} {value : Json} (hvalue : numberValue? marks = some value)
    (hends : Ends cs) :
    tokens? ⟨.between, tokens⟩ (marks ++ cs) = tokens? ⟨.between, .atom value :: tokens⟩ cs := by
  have hrest : ∀ rest before, (∀ c ∈ rest, isNumberMark c = true) →
      numberValue? (before.reverse ++ rest) = some value →
        tokens? ⟨.number before, tokens⟩ (rest ++ cs) = tokens? ⟨.between, .atom value :: tokens⟩ cs := by
    intro rest
    induction rest with
    | nil =>
      intro before _ hvalue
      rw [List.append_nil] at hvalue
      exact tokens?_numberEnd tokens cs hvalue hends
    | cons c rest ih =>
      intro before hrest hvalue
      obtain ⟨hc, hrest⟩ := List.forall_mem_cons.mp hrest
      have hstep : step ⟨.number before, tokens⟩ c = some ⟨.number (c :: before), tokens⟩ := by
        unfold step
        simp only [hc, if_true]
      rw [List.cons_append, tokens?_of_step _ hstep]
      refine ih (c :: before) hrest ?_
      rw [List.reverse_cons, List.append_assoc]
      exact hvalue
  cases marks with
  | nil => cases hvalue
  | cons c rest =>
    have hstep : step ⟨.between, tokens⟩ c = some ⟨.number [c], tokens⟩ := by
      rcases head_of_numberValue? hvalue with rfl | hdigit
      · rfl
      · have hgap : isGap c = false := by
          rw [Bool.eq_false_iff]
          intro hgap
          simp only [isGap, Bool.or_eq_true, beq_iff_eq] at hgap
          rcases hgap with ((rfl | rfl) | rfl) | rfl <;> cases hdigit
        have hquote : (c == '"') = false := by
          rw [beq_eq_false_iff_ne]
          rintro rfl
          cases hdigit
        unfold step startToken
        simp only [hgap, hquote, hdigit, Bool.false_eq_true, if_false, Bool.or_true, if_true]
    rw [List.cons_append, tokens?_of_step _ hstep]
    exact hrest rest [c] (List.forall_mem_cons.mp (isNumberMark_of_numberValue? hvalue)).2 hvalue

theorem tokens?_null (hends : Ends cs) :
    tokens? ⟨.between, tokens⟩ ('n' :: 'u' :: 'l' :: 'l' :: cs) = tokens? ⟨.between, .atom .null :: tokens⟩ cs :=
  tokens?_wordEnd tokens cs ['l', 'l', 'u', 'n'] rfl hends

theorem tokens?_true (hends : Ends cs) :
    tokens? ⟨.between, tokens⟩ ('t' :: 'r' :: 'u' :: 'e' :: cs) =
      tokens? ⟨.between, .atom (.bool true) :: tokens⟩ cs :=
  tokens?_wordEnd tokens cs ['e', 'u', 'r', 't'] rfl hends

theorem tokens?_false (hends : Ends cs) :
    tokens? ⟨.between, tokens⟩ ('f' :: 'a' :: 'l' :: 's' :: 'e' :: cs) =
      tokens? ⟨.between, .atom (.bool false) :: tokens⟩ cs :=
  tokens?_wordEnd tokens cs ['e', 's', 'l', 'a', 'f'] rfl hends

end Scan

end Admission.Json
