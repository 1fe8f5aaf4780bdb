import Admission.Proofs.Price

/-!
# Which price is found

A model without a price of its own is priced like the longest name in the table that is for the same provider and
begins its own name. Two such names of equal length are told apart by nothing but their order, yet this happens
only where one of them names its provider and the other one leaves it out.
-/

namespace Admission

/-! ## Greatest elements -/

theorem lastGreatest?_eq_none {β : Type} (before : β → β → Bool) (xs : List β) :
    lastGreatest? before xs = none ↔ xs = [] := by
  fun_induction lastGreatest? before xs <;> grind

theorem le_lastGreatest? {β : Type} (size : β → Nat) (xs : List β) (x : β)
    (h : lastGreatest? (fun a b => size a < size b) xs = some x) : ∀ y ∈ xs, size y ≤ size x := by
  induction xs generalizing x with
  | nil => cases h
  | cons first rest ih =>
    unfold lastGreatest? at h
    cases hrest : lastGreatest? (fun a b => size a < size b) rest with
    | none =>
      simp only [hrest, Option.some.injEq] at h
      rw [(lastGreatest?_eq_none _ _).mp hrest, ← h]
      simp
    | some greatest =>
      have hle := ih greatest hrest
      simp only [hrest] at h
      intro y hy
      split_ifs at h with hlt
      · cases h
        rcases List.mem_cons.mp hy with rfl | hy
        · exact le_refl _
        · have := hle y hy
          simp only [decide_eq_true_eq] at hlt
          omega
      · cases h
        simp only [decide_eq_true_eq, not_lt] at hlt
        rcases List.mem_cons.mp hy with rfl | hy
        · exact hlt
        · exact hle y hy

/-! ## Names of models -/

/-- The name of a model without its provider. -/
def ownName (model : String) : String := (splitModel model).2

theorem splitModel_cases (model : String) :
    model = (splitModel model).1 ++ "/" ++ ownName model ∨ splitModel model = ("default", model) := by
  unfold ownName splitModel
  dsimp only
  have hparts := List.takeWhile_append_dropWhile (p := fun c : Char => c != '/') (l := model.toList)
  split
  · next slash rest hrest =>
    split_ifs with hempty
    · exact Or.inr rfl
    · left
      have hslash : slash = '/' := by
        have hhead := List.head?_dropWhile_not (fun c : Char => c != '/') model.toList
        rw [hrest] at hhead
        simpa using hhead
      rw [hrest, hslash] at hparts
      apply String.toList_inj.mp
      refine hparts.symm.trans ?_
      simp
  · exact Or.inr rfl

theorem byteSize_of_named (model : String) (h : ownName model ≠ model) :
    model.utf8ByteSize = (splitModel model).1.utf8ByteSize + 1 + (ownName model).utf8ByteSize := by
  rcases splitModel_cases model with hnamed | hbare
  · have hsize := congrArg String.utf8ByteSize hnamed
    rw [String.utf8ByteSize_append, String.utf8ByteSize_append] at hsize
    exact hsize
  · exact absurd (congrArg Prod.snd hbare) h

theorem provider_of_bare (model : String) (h : ownName model = model) : (splitModel model).1 = "default" := by
  rcases splitModel_cases model with hnamed | hbare
  · have hsize := congrArg String.utf8ByteSize hnamed
    rw [String.utf8ByteSize_append, String.utf8ByteSize_append, h] at hsize
    have hslash : "/".utf8ByteSize = 1 := rfl
    omega
  · exact congrArg Prod.fst hbare

theorem eq_of_begin (name one other : String) (hone : one.toList <+: name.toList)
    (hother : other.toList <+: name.toList) (hsize : one.utf8ByteSize = other.utf8ByteSize) : one = other := by
  have key : ∀ a b : String, a.toList <+: b.toList → a.utf8ByteSize = b.utf8ByteSize → a = b := by
    rintro a b ⟨rest, hrest⟩ heq
    have hb : b = a ++ String.ofList rest := String.toList_inj.mp (by simp [← hrest])
    have hsum := congrArg String.utf8ByteSize hb
    rw [String.utf8ByteSize_append, heq, left_eq_add, String.utf8ByteSize_eq_zero_iff] at hsum
    rw [hb, hsum, String.append_empty]
  rcases List.prefix_or_prefix_of_prefix hone hother with hle | hle
  · exact key one other hle hsize
  · exact (key other one hle hsize.symm).symm

namespace PriceTable

variable {α : Type}

theorem begins_iff (model entry : String) :
    begins model entry = true ↔
      (splitModel entry).1 = (splitModel model).1 ∧ (ownName entry).toList <+: (ownName model).toList := by
  simp [begins, ownName]

def Alike (one other : String) : Prop := ownName one = one ↔ ownName other = other

theorem byteSize_lt_iff (model one other : String) (hone : begins model one = true)
    (hother : begins model other = true) (halike : Alike one other) :
    (ownName one).utf8ByteSize < (ownName other).utf8ByteSize ↔ one.utf8ByteSize < other.utf8ByteSize := by
  rw [begins_iff] at hone hother
  by_cases hbare : ownName one = one
  · rw [hbare, halike.mp hbare]
  · rw [byteSize_of_named one hbare, byteSize_of_named other (mt halike.mpr hbare), hone.1, hother.1]
    omega

theorem eq_of_byteSize (model one other : String) (hone : begins model one = true)
    (hother : begins model other = true) (halike : Alike one other)
    (hsize : one.utf8ByteSize = other.utf8ByteSize) : one = other := by
  have hlt := byteSize_lt_iff model one other hone hother halike
  have hgt := byteSize_lt_iff model other one hother hone halike.symm
  rw [begins_iff] at hone hother
  have hown : ownName one = ownName other :=
    eq_of_begin (ownName model) _ _ hone.2 hother.2 (by omega)
  by_cases hbare : ownName one = one
  · rw [← hbare, hown, halike.mp hbare]
  · have hnamed : ∀ name, ownName name ≠ name → name = (splitModel name).1 ++ "/" ++ ownName name :=
      fun name hne => (splitModel_cases name).resolve_right fun h => hne (congrArg Prod.snd h)
    rw [hnamed one hbare, hnamed other (mt halike.mpr hbare), hone.1, hother.1, hown]

/-! ## Looking up -/

/-- What is found where the entries are gone through in this order. -/
def lookup (entries : List (String × Price α)) (model : String) : Option (Price α) :=
  match entries.find? fun entry => entry.1 == model with
  | some entry => some entry.2
  | none =>
    (lastGreatest? (fun a b => a.1.utf8ByteSize < b.1.utf8ByteSize)
      (entries.filter fun entry => begins model entry.1)).map (·.2)

theorem get?_eq_lookup (table : PriceTable α) (model : String) :
    table.get? model = lookup table.prices.toList model := by
  unfold get? lookup Dict.get?
  cases table.prices.toList.find? fun entry => entry.1 == model <;> rfl

variable (table : PriceTable α) (model : String)

/-- An entry for the same provider with a name that begins the name of the model. -/
def Candidate (entry : String × Price α) : Prop := entry ∈ table.prices.toList ∧ begins model entry.1 = true

structure Longest (entry : String × Price α) : Prop where
  candidate : table.Candidate model entry
  le : ∀ other, table.Candidate model other → other.1.utf8ByteSize ≤ entry.1.utf8ByteSize

/-- Every other candidate has a shorter name of its own. -/
structure Closest (entry : String × Price α) : Prop where
  candidate : table.Candidate model entry
  lt : ∀ other, table.Candidate model other → other ≠ entry →
    (ownName other.1).utf8ByteSize < (ownName entry.1).utf8ByteSize

def AllAlike : Prop := ∀ one other, table.Candidate model one → table.Candidate model other → Alike one.1 other.1

variable {table model}

theorem allAlike_of_provider (h : (splitModel model).1 ≠ "default") : table.AllAlike model := by
  have hnamed : ∀ entry, table.Candidate model entry → ownName entry.1 ≠ entry.1 := by
    intro entry hentry hbare
    have hprovider := ((begins_iff model entry.1).mp hentry.2).1
    rw [provider_of_bare entry.1 hbare] at hprovider
    exact h hprovider.symm
  intro one other hone hother
  exact iff_of_false (hnamed one hone) (hnamed other hother)

theorem Longest.closest (halike : table.AllAlike model) {entry : String × Price α}
    (h : table.Longest model entry) : table.Closest model entry := by
  refine ⟨h.candidate, fun other hother hne => ?_⟩
  have hsame := halike other entry hother h.candidate
  rw [byteSize_lt_iff model _ _ hother.2 h.candidate.2 hsame]
  refine lt_of_le_of_ne (h.le other hother) fun hsize => hne ?_
  have hname := eq_of_byteSize model _ _ hother.2 h.candidate.2 hsame hsize
  exact List.inj_on_of_nodup_map table.prices.keys_nodup hother.1 h.candidate.1 hname

theorem Closest.unique {one other : String × Price α} (hone : table.Closest model one)
    (hother : table.Closest model other) : one = other := by
  by_contra hne
  have hlt := hone.lt other hother.candidate (Ne.symm hne)
  have hgt := hother.lt one hone.candidate hne
  omega

section Order

variable {entries : List (String × Price α)} (hperm : entries.Perm table.prices.toList)

include hperm

theorem lookup_of_get? (price : Price α) (h : table.prices.get? model = some price) :
    lookup entries model = some price := by
  have hmem := hperm.mem_iff.mpr (table.prices.mem_of_get? model price h)
  unfold lookup
  cases hfind : entries.find? fun entry => entry.1 == model with
  | none => exact absurd (List.find?_eq_none.mp hfind _ hmem) (by simp)
  | some entry =>
    have hkey : entry.1 = model := by simpa using List.find?_some hfind
    have hentry := hperm.mem_iff.mp (List.mem_of_find?_eq_some hfind)
    have hget := table.prices.get?_of_mem entry.1 entry.2 hentry
    rw [hkey, h] at hget
    exact hget.symm

theorem lookup_of_no_entry (h : table.prices.get? model = none) :
    lookup entries model =
      (lastGreatest? (fun a b => a.1.utf8ByteSize < b.1.utf8ByteSize)
        (entries.filter fun entry => begins model entry.1)).map (·.2) := by
  unfold lookup
  cases hfind : entries.find? fun entry => entry.1 == model with
  | none => rfl
  | some entry =>
    have hkey : entry.1 = model := by simpa using List.find?_some hfind
    have hentry := hperm.mem_iff.mp (List.mem_of_find?_eq_some hfind)
    rw [← hkey, table.prices.get?_of_mem entry.1 entry.2 hentry] at h
    cases h

theorem mem_candidates (entry : String × Price α) :
    entry ∈ entries.filter (fun entry => begins model entry.1) ↔ table.Candidate model entry := by
  rw [List.mem_filter, hperm.mem_iff, Candidate]

theorem lookup_eq_none_iff (h : table.prices.get? model = none) :
    lookup entries model = none ↔ ∀ entry, ¬ table.Candidate model entry := by
  rw [lookup_of_no_entry hperm h, Option.map_eq_none_iff, lastGreatest?_eq_none, List.eq_nil_iff_forall_not_mem]
  simp only [mem_candidates hperm]

theorem longest_of_lookup (h : table.prices.get? model = none) (price : Price α)
    (hfound : lookup entries model = some price) : ∃ entry, table.Longest model entry ∧ entry.2 = price := by
  rw [lookup_of_no_entry hperm h] at hfound
  obtain ⟨entry, hgreatest, hprice⟩ := Option.map_eq_some_iff.mp hfound
  refine ⟨entry, ⟨(mem_candidates hperm entry).mp (lastGreatest?_mem hgreatest), fun other hother => ?_⟩, hprice⟩
  exact le_lastGreatest? (fun e : String × Price α => e.1.utf8ByteSize) _ entry hgreatest other
    ((mem_candidates hperm other).mpr hother)

theorem lookup_eq_get? (h : table.prices.get? model = none)
    (hsame : ∀ one other, table.Longest model one → table.Longest model other → one.2 = other.2) :
    lookup entries model = table.get? model := by
  have hself := List.Perm.refl table.prices.toList
  rw [get?_eq_lookup]
  cases hfound : lookup entries model with
  | none =>
    rw [lookup_eq_none_iff hperm h] at hfound
    exact ((lookup_eq_none_iff hself h).mpr hfound).symm
  | some price =>
    obtain ⟨one, hone, rfl⟩ := longest_of_lookup hperm h price hfound
    cases hget : lookup table.prices.toList model with
    | none => exact absurd hone.candidate ((lookup_eq_none_iff hself h).mp hget one)
    | some price =>
      obtain ⟨other, hother, rfl⟩ := longest_of_lookup hself h price hget
      rw [hsame one other hone hother]

/-- In whatever order the entries are gone through, the model's own entry is found, or else one with the longest name
among those that begin it; which one of these does not matter where they have one price. If all of them are spelled
alike, it is the one with the longest name of its own. -/
theorem lookup_longest :
    table.get? model = lookup table.prices.toList model ∧
    (∀ price, table.prices.get? model = some price → lookup entries model = some price) ∧
    (table.prices.get? model = none →
      (lookup entries model = none ↔ ∀ entry, ¬ table.Candidate model entry) ∧
      (∀ price, lookup entries model = some price → ∃ entry, table.Longest model entry ∧ entry.2 = price) ∧
      ((∀ one other, table.Longest model one → table.Longest model other → one.2 = other.2) →
        lookup entries model = table.get? model) ∧
      ((splitModel model).1 ≠ "default" → table.AllAlike model) ∧
      (table.AllAlike model → (∃ entry, table.Candidate model entry) →
        ∃! entry, table.Closest model entry ∧ lookup entries model = some entry.2)) := by
  refine ⟨get?_eq_lookup table model, lookup_of_get? hperm, fun hnone => ⟨lookup_eq_none_iff hperm hnone,
    longest_of_lookup hperm hnone, lookup_eq_get? hperm hnone, allAlike_of_provider, fun halike hsome => ?_⟩⟩
  cases hfound : lookup entries model with
  | none =>
    obtain ⟨entry, hentry⟩ := hsome
    exact absurd hentry ((lookup_eq_none_iff hperm hnone).mp hfound entry)
  | some price =>
    obtain ⟨entry, hlongest, rfl⟩ := longest_of_lookup hperm hnone price hfound
    exact ⟨entry, ⟨hlongest.closest halike, rfl⟩, fun other hother => hother.1.unique (hlongest.closest halike)⟩

end Order

theorem lookup_longest_versioned :
    (defaults : PriceTable Rat).prices.toList.reverse.Perm (defaults : PriceTable Rat).prices.toList ∧
    lookup (defaults : PriceTable Rat).prices.toList.reverse "openai/gpt-4o-mini-2024-07-18" =
      some ⟨0.00015, 0.0006⟩ ∧
    ∃! entry, (defaults : PriceTable Rat).Closest "openai/gpt-4o-mini-2024-07-18" entry ∧
      lookup (defaults : PriceTable Rat).prices.toList.reverse "openai/gpt-4o-mini-2024-07-18" = some entry.2 := by
  have hperm := List.reverse_perm (defaults : PriceTable Rat).prices.toList
  have hnone : (defaults : PriceTable Rat).prices.get? "openai/gpt-4o-mini-2024-07-18" = none := by decide +kernel
  obtain ⟨-, -, -, halike, hunique⟩ := (lookup_longest hperm).2.2 hnone
  refine ⟨hperm, by decide +kernel, hunique (halike (by decide +kernel)) ?_⟩
  exact ⟨("openai/gpt-4o-mini", ⟨0.00015, 0.0006⟩), by decide +kernel, by decide +kernel⟩

def mixedNames : PriceTable Rat := ⟨.ofList [("default/gpt", ⟨1, 2⟩), ("gpt-4", ⟨3, 4⟩)]⟩

/-- The longer name is found, though the other one has more in common with the name of the model. -/
theorem lookup_misses_closest :
    mixedNames.prices.get? "gpt-4-turbo" = none ∧ mixedNames.Closest "gpt-4-turbo" ("gpt-4", ⟨3, 4⟩) ∧
    mixedNames.get? "gpt-4-turbo" = some ⟨1, 2⟩ := by
  have hlist : mixedNames.prices.toList = [("default/gpt", ⟨1, 2⟩), ("gpt-4", ⟨3, 4⟩)] := by decide +kernel
  refine ⟨by decide +kernel, ⟨⟨by simp [hlist], by decide +kernel⟩, fun other hother hne => ?_⟩, by decide +kernel⟩
  have hmem := hother.1
  rw [hlist, List.mem_cons, List.mem_singleton] at hmem
  rcases hmem with rfl | rfl
  · decide +kernel
  · exact absurd rfl hne

-- Of a name with the provider and an equally long one without it the last one is found.
example : lookup [("default/m", ⟨1, 2⟩), ("m-2026-11", ⟨3, 4⟩)] "m-2026-11-20" = some (⟨3, 4⟩ : Price Rat) ∧
    lookup [("m-2026-11", ⟨3, 4⟩), ("default/m", ⟨1, 2⟩)] "m-2026-11-20" = some (⟨1, 2⟩ : Price Rat) := by
  decide +kernel

end PriceTable

end Admission
