import Admission.Json.Reader
import Admission.Proofs.Json.Tokens

/-!
# What is written is read back

A value is read as itself, whether it is written on one line or over several, so its text says everything about it. The
text is cut into the tokens of the value, and the tokens build it again. Whole numbers have to be of at most 64 bits; of
the other numbers it is asked that each one is read as what it is written as.
-/

namespace Admission.Json

/-- Every part of the value has a text that is read as that part. -/
inductive Legible : Json → Prop
  | null : Legible .null
  | bool (value : Bool) : Legible (.bool value)
  | int (n : Int) (h : fitsWord n = true) : Legible (.int n)
  | float (x : Double) (h : numberValue? (floatChars x) = some (.float x)) : Legible (.float x)
  | str (s : String) : Legible (.str s)
  | arr (items : List Json) (h : ∀ item ∈ items, Legible item) : Legible (.arr items)
  | obj (members : List (String × Json)) (h : ∀ m ∈ members, Legible m.2) : Legible (.obj members)

mutual

def tokens : Json → List Token
  | .str s => [.str (some s)]
  | .arr items => .openArray :: itemTokens items ++ [.closeArray]
  | .obj members => .openObject :: memberTokens members ++ [.closeObject]
  | atom => [.atom atom]

def itemTokens : List Json → List Token
  | [] => []
  | [item] => tokens item
  | item :: rest => tokens item ++ .comma :: itemTokens rest

def memberTokens : List (String × Json) → List Token
  | [] => []
  | [(name, value)] => .str (some name) :: .colon :: tokens value
  | (name, value) :: rest => .str (some name) :: .colon :: tokens value ++ .comma :: memberTokens rest

end

/-! ## Whole numbers -/

theorem unsigned?_digits (negative : Bool) (m : Nat) (n : Int) (hn : n = if negative then -(m : Int) else m)
    (h : fitsWord n = true) (hzero : (negative && n == 0) = false) :
    unsigned? negative (Decimal.digits m) = some (.int n) := by
  have hwhole : (Decimal.digits m).takeWhile Char.isDigit = Decimal.digits m :=
    List.takeWhile_eq_self_iff.mpr fun _ hc => Decimal.isDigit_of_mem_digits hc
  have hrest : (Decimal.digits m).dropWhile Char.isDigit = [] :=
    List.dropWhile_eq_nil_iff.mpr fun _ hc => Decimal.isDigit_of_mem_digits hc
  have hempty : (Decimal.digits m).isEmpty = false := List.isEmpty_eq_false_iff.mpr (Decimal.digits_ne_nil m)
  have hlead : ((Decimal.digits m).head? == some '0' && decide ((Decimal.digits m).length > 1)) = false := by
    by_cases hm : m = 0
    · rw [hm]
      rfl
    · rw [beq_eq_false_iff_ne.mpr (Decimal.head?_digits_ne_zero hm), Bool.false_and]
  unfold unsigned?
  simp only [hwhole, hrest, hempty, hlead, Bool.or_self, Bool.false_eq_true, if_false, Decimal.ofDigits_digits, ← hn, h,
    hzero, Bool.not_false, Bool.and_self, if_true]

theorem numberValue?_intChars {n : Int} (h : fitsWord n = true) : numberValue? (intChars n) = some (.int n) := by
  cases n with
  | ofNat m =>
    have hread : numberValue? (Decimal.digits m) = unsigned? false (Decimal.digits m) := by
      unfold numberValue?
      split
      · next marks heq =>
        have hminus := Decimal.isDigit_of_mem_digits (heq ▸ List.mem_cons_self : '-' ∈ Decimal.digits m)
        cases hminus
      · rfl
    exact hread.trans (unsigned?_digits false m (Int.ofNat m) rfl h rfl)
  | negSucc m => exact unsigned?_digits true (m + 1) (Int.negSucc m) rfl h rfl

/-! ## Into tokens -/

/-- The text is cut into these tokens, whatever comes before it. -/
def Cuts (text : List Char) (parts : List Token) : Prop :=
  ∀ before cs, Ends cs →
    Scan.tokens? ⟨.between, before⟩ (text ++ cs) = Scan.tokens? ⟨.between, parts.reverse ++ before⟩ cs

theorem ends_punctuation {c : Char} {token : Token} (h : punctuation? c = some token) :
    isNumberMark c = false ∧ c.isLower = false := by
  unfold punctuation? at h
  split at h <;> first | decide | cases h

namespace Cuts

open Scan (tokens?_gap tokens?_newline tokens?_punctuation tokens?_stringChars tokens?_number tokens?_null tokens?_true
  tokens?_false)

variable {text rest : List Char} {parts others : List Token}

theorem nil : Cuts [] [] := fun _ _ _ => rfl

theorem null : Cuts ['n', 'u', 'l', 'l'] [.atom .null] := fun before cs hends => tokens?_null before cs hends

theorem bool (value : Bool) : Cuts (atomChars (.bool value)) [.atom (.bool value)] :=
  match value with
  | true => fun before cs hends => tokens?_true before cs hends
  | false => fun before cs hends => tokens?_false before cs hends

theorem number {marks : List Char} {value : Json} (h : numberValue? marks = some value) : Cuts marks [.atom value] :=
  fun before cs hends => tokens?_number before cs h hends

theorem gap {c : Char} (hc : isGap c = true) (h : Cuts text parts) : Cuts (c :: text) parts :=
  fun before cs hends => (tokens?_gap before _ hc).trans (h before cs hends)

theorem line (depth : Nat) (h : Cuts text parts) : Cuts (newline depth ++ text) parts := by
  intro before cs hends
  rw [List.append_assoc, tokens?_newline, h before cs hends]

theorem mark {c : Char} {token : Token} (hc : punctuation? c = some token) (h : Cuts text parts) :
    Cuts (c :: text) (token :: parts) := by
  intro before cs hends
  rw [List.cons_append, tokens?_punctuation _ _ hc, h _ cs hends, List.reverse_cons, List.append_assoc]
  rfl

theorem string (s : String) : Cuts (stringChars s) [.str (some s)] := fun before cs _ => tokens?_stringChars before cs s

theorem append (h : Cuts text parts) (hends : ∀ cs, Ends (rest ++ cs)) (hrest : Cuts rest others) :
    Cuts (text ++ rest) (parts ++ others) := by
  intro before cs hcs
  rw [List.append_assoc, h before _ (hends cs), hrest _ cs hcs, List.reverse_append, List.append_assoc]

theorem append_mark {c : Char} {token : Token} (h : Cuts text parts) (hc : punctuation? c = some token)
    (hrest : Cuts rest others) : Cuts (text ++ c :: rest) (parts ++ token :: others) :=
  h.append (fun _ => Ends.cons _ (ends_punctuation hc)) (.mark hc hrest)

theorem append_line {c : Char} {token : Token} (depth : Nat) (h : Cuts text parts) (hc : punctuation? c = some token)
    (hrest : Cuts rest others) : Cuts (text ++ (newline depth ++ c :: rest)) (parts ++ token :: others) :=
  h.append (fun _ => Ends.cons _ (by decide)) (.line depth (.mark hc hrest))

theorem separated {β : Type} (chars : β → List Char) (parts : β → List Token) (xs : List β)
    (h : ∀ x ∈ xs, Cuts (chars x) (parts x)) :
    Cuts ([','].intercalate (xs.map chars)) ([Token.comma].intercalate (xs.map parts)) := by
  induction xs with
  | nil => exact nil
  | cons x rest ih =>
    obtain ⟨hx, hrest⟩ := List.forall_mem_cons.mp h
    cases rest with
    | nil => simpa using hx
    | cons next rest =>
      simp only [List.map_cons, List.intercalate_cons_cons, List.append_assoc, List.cons_append, List.nil_append]
      exact hx.append_mark rfl (ih hrest)

end Cuts

theorem eq_intercalate {β γ : Type} {mark : γ} {whole : List β → List γ} {part : β → List γ} (hnil : whole [] = [])
    (hone : ∀ x, whole [x] = part x)
    (hcons : ∀ x next rest, whole (x :: next :: rest) = part x ++ mark :: whole (next :: rest)) (xs : List β) :
    whole xs = [mark].intercalate (xs.map part) := by
  induction xs with
  | nil => exact hnil
  | cons x rest ih =>
    cases rest with
    | nil => simpa using hone x
    | cons next rest =>
      rw [hcons, ih]
      simp only [List.map_cons, List.intercalate_cons_cons, List.append_assoc, List.cons_append, List.nil_append]

theorem itemTokens_eq (items : List Json) : itemTokens items = [.comma].intercalate (items.map tokens) :=
  eq_intercalate rfl (fun _ => rfl) (fun _ _ _ => rfl) items

theorem memberTokens_eq (members : List (String × Json)) :
    memberTokens members = [.comma].intercalate (members.map fun m => .str (some m.1) :: .colon :: tokens m.2) :=
  eq_intercalate rfl (fun _ => rfl) (fun _ _ _ => rfl) members

theorem prettyItems_eq (depth : Nat) (items : List Json) :
    prettyItems depth items = [','].intercalate (items.map fun item => newline depth ++ prettyChars depth item) :=
  eq_intercalate rfl (fun _ => rfl) (fun _ _ _ => rfl) items

theorem prettyMembers_eq (depth : Nat) (members : List (String × Json)) :
    prettyMembers depth members =
      [','].intercalate (members.map fun m => newline depth ++ (stringChars m.1 ++ ':' :: ' ' :: prettyChars depth m.2)) :=
  eq_intercalate rfl (fun _ => by simp [prettyMembers]) (fun _ _ _ => by simp [prettyMembers]) members

namespace Legible

variable {j : Json}

theorem cuts_pretty (h : j.Legible) (depth : Nat) : Cuts (prettyChars depth j) (tokens j) := by
  induction h generalizing depth with
  | null => exact .null
  | bool value => exact .bool value
  | int n h => exact .number (numberValue?_intChars h)
  | float x h => exact .number h
  | str s => exact .string s
  | arr items _ ih =>
    cases items with
    | nil => exact .mark rfl (.mark rfl .nil)
    | cons item rest =>
      simp only [prettyChars, tokens, prettyItems_eq, itemTokens_eq, List.append_assoc, List.cons_append]
      refine .mark rfl ((Cuts.separated _ _ (item :: rest) fun item hitem => ?_).append_line depth rfl .nil)
      exact (ih item hitem (depth + 1)).line (depth + 1)
  | obj members _ ih =>
    cases members with
    | nil => exact .mark rfl (.mark rfl .nil)
    | cons m rest =>
      simp only [prettyChars, tokens, prettyMembers_eq, memberTokens_eq, List.append_assoc, List.cons_append]
      refine .mark rfl ((Cuts.separated _ _ (m :: rest) fun m hm => ?_).append_line depth rfl .nil)
      exact ((Cuts.string m.1).append_mark rfl (.gap rfl (ih m hm (depth + 1)))).line (depth + 1)

end Legible

/-! ## Out of tokens -/

namespace Build

theorem run_cons (b : Build) (token : Token) (tokens : List Token) :
    b.run (token :: tokens) = (b.step token).bind fun b => b.run tokens := by
  unfold run
  rw [List.foldlM_cons]
  cases b.step token <;> rfl

theorem run_of_step {b c : Build} {token : Token} (tokens : List Token) (h : b.step token = some c) :
    b.run (token :: tokens) = c.run tokens := by
  rw [run_cons, h]
  rfl

theorem run_firstItem (stack : List Frame) (item : Json) (items : List Json) (rest : List Token) :
    run ⟨stack, .firstItem⟩ (itemTokens (item :: items) ++ rest) =
      run ⟨stack, .value⟩ (itemTokens (item :: items) ++ rest) := by
  cases items <;> cases item <;> rfl

theorem run_firstName (stack : List Frame) (m : String × Json) (members : List (String × Json))
    (rest : List Token) :
    run ⟨stack, .firstName []⟩ (memberTokens (m :: members) ++ rest) =
      run ⟨stack, .name []⟩ (memberTokens (m :: members) ++ rest) := by
  cases members <;> rfl

theorem ofMembers_named (members : List (String × Json)) :
    ofMembers (members.map fun m => (some m.1, m.2)).reverse = .obj members := by
  have hnames : (members.map fun m => (some m.1, m.2)).mapM (fun m => m.1.map (·, m.2)) = some members := by
    induction members with
    | nil => rfl
    | cons m rest ih =>
      rw [List.map_cons, List.mapM_cons, ih]
      rfl
  unfold ofMembers
  rw [List.reverse_reverse]
  simp only [hnames]

mutual

theorem run_tokens : (j : Json) → (stack : List Frame) → (rest : List Token) →
    run ⟨stack, .value⟩ (tokens j ++ rest) = (accept stack j).run rest
  | .arr [], _, _ => rfl
  | .arr (item :: items), stack, rest => by
    rw [tokens, List.append_assoc, List.cons_append, run_of_step _ (c := ⟨.items [] :: stack, .firstItem⟩) rfl,
      run_firstItem]
    exact run_itemTokens (item :: items) (List.cons_ne_nil _ _) [] stack rest
  | .obj [], _, _ => rfl
  | .obj (m :: members), stack, rest => by
    rw [tokens, List.append_assoc, List.cons_append, run_of_step _ (c := ⟨stack, .firstName []⟩) rfl, run_firstName]
    exact run_memberTokens (m :: members) (List.cons_ne_nil _ _) [] stack rest
  | .str _, _, _ => rfl
  | .null, _, _ => rfl
  | .bool _, _, _ => rfl
  | .int _, _, _ => rfl
  | .float _, _, _ => rfl
  | .unusable, _, _ => rfl

theorem run_itemTokens : (items : List Json) → items ≠ [] → (done : List Json) → (stack : List Frame) →
    (rest : List Token) → run ⟨.items done.reverse :: stack, .value⟩ (itemTokens items ++ .closeArray :: rest) =
      (accept stack (.arr (done ++ items))).run rest
  | [], h, _, _, _ => absurd rfl h
  | [item], _, done, stack, rest => by
    rw [itemTokens, run_tokens item]
    refine run_of_step rest ?_
    show some (accept stack (.arr (item :: done.reverse).reverse)) = _
    rw [List.reverse_cons, List.reverse_reverse]
  | item :: next :: items, _, done, stack, rest => by
    have hrest := run_itemTokens (next :: items) (List.cons_ne_nil _ _) (done ++ [item]) stack rest
    rw [List.reverse_append, List.append_assoc] at hrest
    simp only [itemTokens, List.append_assoc]
    rw [run_tokens item]
    exact hrest

theorem run_memberTokens : (members : List (String × Json)) → members ≠ [] → (done : List (String × Json)) →
    (stack : List Frame) → (rest : List Token) →
    run ⟨stack, .name (done.map fun m => (some m.1, m.2)).reverse⟩ (memberTokens members ++ .closeObject :: rest) =
      (accept stack (.obj (done ++ members))).run rest
  | [], h, _, _, _ => absurd rfl h
  | [(name, value)], _, done, stack, rest => by
    rw [memberTokens, List.cons_append, List.cons_append, run_of_step _ rfl, run_of_step _ rfl, run_tokens value]
    refine run_of_step rest ?_
    rw [← ofMembers_named, List.map_append, List.reverse_append]
    rfl
  | (name, value) :: next :: members, _, done, stack, rest => by
    have hrest := run_memberTokens (next :: members) (List.cons_ne_nil _ _) (done ++ [(name, value)]) stack rest
    rw [List.map_append, List.reverse_append, List.append_assoc] at hrest
    simp only [memberTokens, List.append_assoc, List.cons_append]
    rw [run_of_step _ rfl, run_of_step _ rfl, run_tokens value]
    exact hrest

end

end Build

theorem read?_of_cuts {j : Json} {text : List Char} (h : Cuts text (tokens j)) : read? (String.ofList text) = some j := by
  have htokens : tokens? text = some (tokens j) := by
    have hcut := h [] [] Ends.nil
    rw [List.append_nil, List.append_nil] at hcut
    refine hcut.trans ?_
    show some (tokens j).reverse.reverse = some (tokens j)
    rw [List.reverse_reverse]
  have hbuild : ofTokens? (tokens j) = some j := by
    have hrun := Build.run_tokens j [] []
    rw [List.append_nil] at hrun
    unfold ofTokens?
    rw [hrun]
    rfl
  unfold read?
  rw [String.toList_ofList, htokens, Option.bind_some, hbuild]

theorem read?_pretty {j : Json} (h : j.Legible) : read? j.pretty = some j := read?_of_cuts (h.cuts_pretty 0)

end Admission.Json
